import DiagramSync.Proofs.Entity.Longest
import DiagramSync.Proofs.Entity.Prose

/-!
The longest match is read. Of the phrases that a text begins with it is the longest one; and on the
way from there to a target the longest known name goes before shorter names and before words that
are passed over, in whatever order names of one size are tried.
-/

namespace DiagramSync

open Text

/-! ### The longest phrase -/

namespace Phrase

/-- The text begins with the phrase, in any letter case, a word ends there, and `rest` follows. -/
def StandsAt (phrase : Phrase) (text rest : Text) : Prop :=
  (∃ matched, text = matched ++ rest ∧
    matched.map Char.toLower = phrase.text.toList.map Char.toLower) ∧ endsWord rest = true

/-- A phrase of the vocabulary stands at the beginning of the text, and no longer one does. -/
def LongestAt (phrase : Phrase) (text rest : Text) : Prop :=
  phrase ∈ all ∧ phrase.StandsAt text rest ∧ ∀ other ∈ all, ∀ rest,
    other.StandsAt text rest → other.text.length ≤ phrase.text.length

theorem eq_of_text_eq : ∀ phrase ∈ all, ∀ other ∈ all,
    phrase.text.toList.map Char.toLower = other.text.toList.map Char.toLower →
      phrase = other := by
  decide

variable {phrase other : Phrase} {text rest rest' : Text}

theorem StandsAt.unique (h : phrase.StandsAt text rest) (hother : other.StandsAt text rest')
    (hphrase : phrase ∈ all) (hmem : other ∈ all)
    (hlength : phrase.text.length = other.text.length) : phrase = other ∧ rest = rest' := by
  obtain ⟨⟨matched, rfl, hmatched⟩, -⟩ := h
  obtain ⟨⟨matched', htext, hmatched'⟩, -⟩ := hother
  have hsame : matched.length = matched'.length := by
    have hfirst := congrArg List.length hmatched
    have hsecond := congrArg List.length hmatched'
    simp only [List.length_map, String.length_toList] at hfirst hsecond
    omega
  obtain ⟨rfl, rfl⟩ := List.append_inj htext hsame
  exact ⟨eq_of_text_eq phrase hphrase other hmem (hmatched.symm.trans hmatched'), rfl⟩

end Phrase

namespace Mention

variable {names known : List String} {text rest : Text} {phrase : Phrase}

theorem afterPhrase?_eq_some_iff :
    afterPhrase? text phrase = some rest ↔ phrase.StandsAt text rest := by
  rw [afterPhrase?]
  constructor
  · intro h
    split at h
    · rename_i after hstrip
      split at h
      · rename_i hends
        obtain rfl := Option.some.inj h
        exact ⟨stripPrefixNoCase?_eq_some_iff.mp hstrip, hends⟩
      · contradiction
    · contradiction
  · rintro ⟨hbegins, hends⟩
    rw [stripPrefixNoCase?_eq_some_iff.mpr hbegins]
    exact if_pos hends

theorem isSome_phrase?_iff :
    (phrase? text).isSome = true ↔ ∃ phrase ∈ Phrase.all, ∃ rest, phrase.StandsAt text rest := by
  rw [phrase?, List.findSome?_isSome_iff]
  simp only [Option.isSome_map, Option.isSome_iff_exists, afterPhrase?_eq_some_iff]

/-- The vocabulary is sorted by length, so the first phrase that is found is the longest one. -/
theorem phrase?_eq_some_iff :
    phrase? text = some (phrase, rest) ↔ phrase.LongestAt text rest := by
  have hfirst : ∀ {phrase rest}, phrase? text = some (phrase, rest) →
      phrase.LongestAt text rest := by
    intro phrase rest hfound
    obtain ⟨item, hitem, hread, hlargest⟩ :=
      exists_largest_of_findSome?_eq_some Phrase.all_longest_first hfound
    obtain ⟨after, hafter, hpair⟩ := Option.map_eq_some_iff.mp hread
    obtain ⟨rfl, rfl⟩ := Prod.mk.inj hpair
    refine ⟨hitem, afterPhrase?_eq_some_iff.mp hafter, fun other hother rest' hrest' => ?_⟩
    apply hlargest other hother
    rw [afterPhrase?_eq_some_iff.mpr hrest']
    rfl
  constructor
  · exact hfirst
  · rintro ⟨hphrase, hstands, hlongest⟩
    have hsome := isSome_phrase?_iff.mpr ⟨phrase, hphrase, rest, hstands⟩
    obtain ⟨⟨other, after⟩, hfound⟩ := Option.isSome_iff_exists.mp hsome
    obtain ⟨hother, hafter, hlongest'⟩ := hfirst hfound
    have hle := hlongest other hother after hafter
    have hge := hlongest' phrase hphrase rest hstands
    obtain ⟨rfl, rfl⟩ := hafter.unique hstands hother hphrase (le_antisymm hle hge)
    exact hfound

/-! ### Targets -/

/-- The word that a text begins with; it may be empty. -/
def firstWord (text : Text) : Text :=
  text.takeWhile isAlphanumeric

/-- None of the names stands at the beginning of the text. -/
def NoneAt (names : List String) (text : Text) : Prop :=
  ∀ name ∈ names, ∀ rest, ¬ StandsAt text name rest

/-- What comes of a text in search of a target, when `fillers` words may still be passed over. At
each step the longest name goes first; where there is no name, a word is passed over if it may be. -/
inductive Resolves (names : List String) :
    (fillers : Nat) → Text → Except String (String × Text) → Prop where
  | found {fillers : Nat} {text rest : Text} {name : String} :
      LongestAt names (trimStart text) name rest → Resolves names fillers text (.ok (name, rest))
  | passed {fillers : Nat} {text : Text} {result : Except String (String × Text)} :
      NoneAt names (trimStart text) → Phrase.isFiller (firstWord (trimStart text)) = true →
      Resolves names fillers ((trimStart text).dropWhile isAlphanumeric) result →
      Resolves names (fillers + 1) text result
  | unknown {fillers : Nat} {text : Text} : NoneAt names (trimStart text) →
      (fillers = 0 ∨ Phrase.isFiller (firstWord (trimStart text)) = false) →
      Resolves names fillers text (.error (describe (firstWord (trimStart text))))

theorem LongestFirst.nameAt?_eq_none_iff (h : LongestFirst names known) :
    nameAt? known text = none ↔ NoneAt names text := by
  rw [Mention.nameAt?_eq_none_iff, NoneAt]
  simp only [h.1.mem_iff]

/-- The induction is on the number of words that may be passed over. -/
theorem LongestFirst.resolves (h : LongestFirst names known) (fillers : Nat) (text : Text) :
    Resolves names fillers text (resolve known fillers text) := by
  induction fillers generalizing text with
  | zero =>
    rw [resolve]
    cases hname : nameAt? known (trimStart text) with
    | some found => exact .found (h.nameAt?_eq_some_iff.mp hname)
    | none => exact .unknown (h.nameAt?_eq_none_iff.mp hname) (.inl rfl)
  | succ fillers ih =>
    rw [resolve]
    cases hname : nameAt? known (trimStart text) with
    | some found => exact .found (h.nameAt?_eq_some_iff.mp hname)
    | none =>
      have hnone := h.nameAt?_eq_none_iff.mp hname
      dsimp only
      split
      · rename_i hfiller
        exact .passed hnone hfiller (ih _)
      · rename_i hfiller
        exact .unknown hnone (.inr (Bool.eq_false_iff.mpr hfiller))

/-- The induction is on the steps of the search. -/
theorem LongestFirst.resolve_eq {fillers : Nat} {result : Except String (String × Text)}
    (h : LongestFirst names known) (hresolves : Resolves names fillers text result) :
    resolve known fillers text = result := by
  induction hresolves with
  | found hlongest => exact resolve_of_nameAt?_eq_some (h.nameAt?_eq_some_iff.mpr hlongest) _
  | passed hnone hfiller _ ih =>
    rw [resolve, h.nameAt?_eq_none_iff.mpr hnone]
    exact (if_pos hfiller).trans ih
  | @unknown fillers text hnone hlast =>
    replace hnone := h.nameAt?_eq_none_iff.mpr hnone
    cases fillers with
    | zero =>
      rw [resolve, hnone]
      rfl
    | succ fillers =>
      have hfiller := hlast.resolve_left (Nat.succ_ne_zero fillers)
      rw [resolve, hnone]
      exact if_neg (Bool.eq_false_iff.mp hfiller)

/-! ### The longest match -/

/-- A phrase is read where one of the vocabulary stands, and it is the longest one. In any order of
the names that puts long ones first, which is so for the order by size, the search for a target ends
in the same way: at each step with the longest name that stands there, and where none does it goes
on behind a word that may be passed over. -/
theorem phrase?_and_resolve_longest (names : List String) :
    (∀ text, (phrase? text).isSome = true ↔
      ∃ phrase ∈ Phrase.all, ∃ rest, phrase.StandsAt text rest) ∧
    (∀ text phrase rest, phrase? text = some (phrase, rest) ↔ phrase.LongestAt text rest) ∧
    LongestFirst names (Entity.bySize names) ∧
    ∀ known, LongestFirst names known → ∀ fillers text,
      resolve known fillers text = resolve (Entity.bySize names) fillers text ∧
      ∀ result, resolve known fillers text = result ↔ Resolves names fillers text result := by
  refine ⟨fun text => isSome_phrase?_iff, fun text phrase rest => phrase?_eq_some_iff,
    longestFirst_bySize names, fun known hknown fillers text => ⟨?_, fun result => ?_⟩⟩
  · exact hknown.resolve_eq ((longestFirst_bySize names).resolves fillers text)
  · constructor
    · rintro rfl
      exact hknown.resolves fillers text
    · exact hknown.resolve_eq

/-- The longer phrase and the longer name are read, and a word that may be passed over is a name
where it is listed. -/
theorem phrase?_and_resolve_longest_shop :
    let names := ["Order", "Users", "the", "Order Item"]
    let known := ["Order Item", "Users", "Order", "the"]
    LongestFirst names known ∧
      Phrase.LongestAt ⟨"has one or more", .oneToMany⟩ "Has one or MORE Users".toList
        " Users".toList ∧
      resolve known 3 " a Order Item.".toList =
        resolve (Entity.bySize names) 3 " a Order Item.".toList ∧
      Resolves names 3 " a Order Item.".toList (.ok ("Order Item", ".".toList)) ∧
      Resolves names 3 " the Order".toList (.ok ("the", " Order".toList)) := by
  intro names known
  have hknown : LongestFirst names known := by
    constructor <;> decide +kernel
  obtain ⟨-, hphrase, -, hresolve⟩ := phrase?_and_resolve_longest names
  replace hresolve := hresolve known hknown 3
  have hitem : resolve known 3 " a Order Item.".toList = .ok ("Order Item", ".".toList) := by
    decide +kernel
  have hthe : resolve known 3 " the Order".toList = .ok ("the", " Order".toList) := by
    decide +kernel
  exact ⟨hknown, (hphrase _ _ _).mp (by decide +kernel), (hresolve _).1,
    ((hresolve _).2 _).mp hitem, ((hresolve _).2 _).mp hthe⟩

end Mention

end DiagramSync
