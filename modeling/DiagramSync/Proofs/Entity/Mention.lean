import DiagramSync.Entity.Mention
import DiagramSync.Proofs.Text.Search

/-!
What the prose about an entity says where a mention in it is resolved: a phrase of the vocabulary
stands at the beginning of a word, and nothing but filler words comes between the phrase and the
name of the target.
-/

namespace DiagramSync

open Text

/-! ### Statements in prose -/

/-- The text leads to a name: behind at most `fillers` filler words the name stands as it is
written, and a word ends with it. -/
inductive LeadsTo (name : Text) : (fillers : Nat) → Text → Prop where
  | arrive {fillers : Nat} (white rest : Text) : (∀ c ∈ white, isWhite c = true) →
      endsWord rest = true → LeadsTo name fillers (white ++ (name ++ rest))
  | pass {fillers : Nat} (white word rest : Text) : (∀ c ∈ white, isWhite c = true) →
      Phrase.isFiller word = true → (∀ c ∈ rest.head?, isAlphanumeric c = false) →
      LeadsTo name fillers rest → LeadsTo name (fillers + 1) (white ++ (word ++ rest))

/-- The prose holds the phrase, in any letter case, as words of their own, and leads from there to
the target. -/
def States (prose : Text) (phrase : Phrase) (target : String) : Prop :=
  ∃ before matched after, prose = before ++ (matched ++ after) ∧
    (∀ c ∈ before.getLast?, continuesWord c = false) ∧
    matched.map Char.toLower = phrase.text.toList.map Char.toLower ∧ endsWord after = true ∧
    LeadsTo target.toList Phrase.fillerLimit after

namespace Mention

variable {known : List String} {text rest : Text} {phrase : Phrase} {target : String}

theorem of_phrase?_eq_some (h : phrase? text = some (phrase, rest)) :
    phrase ∈ Phrase.all ∧ endsWord rest = true ∧ ∃ matched, text = matched ++ rest ∧
      matched.map Char.toLower = phrase.text.toList.map Char.toLower := by
  obtain ⟨first, hfirst, hfound⟩ := List.exists_of_findSome?_eq_some h
  obtain ⟨after, hafter, hpair⟩ := Option.map_eq_some_iff.mp hfound
  obtain ⟨rfl, rfl⟩ := Prod.mk.inj hpair
  rw [afterPhrase?] at hafter
  split at hafter
  · rename_i rest hstrip
    split at hafter
    · rename_i hends
      obtain rfl := Option.some.inj hafter
      exact ⟨hfirst, hends, stripPrefixNoCase?_eq_some_iff.mp hstrip⟩
    · contradiction
  · contradiction

theorem of_nameAt?_eq_some (h : nameAt? known text = some (target, rest)) :
    target ∈ known ∧ text = target.toList ++ rest ∧ endsWord rest = true := by
  obtain ⟨name, hname, hfound⟩ := List.exists_of_findSome?_eq_some h
  split at hfound
  · rename_i after hstrip
    split at hfound
    · rename_i hends
      obtain ⟨rfl, rfl⟩ := Prod.mk.inj (Option.some.inj hfound)
      exact ⟨hname, stripPrefix?_eq_some_iff.mp hstrip, hends⟩
    · contradiction
  · contradiction

theorem resolve_of_nameAt?_eq_some {found : String × Text}
    (h : nameAt? known (trimStart text) = some found) (fillers : Nat) :
    resolve known fillers text = .ok found := by
  cases fillers <;> rw [resolve, h]

/-- A target that is found stands at the beginning of the text, or behind a filler word. -/
theorem cases_of_resolve_eq_ok {fillers : Nat} {found : String × Text}
    (h : resolve known fillers text = .ok found) :
    nameAt? known (trimStart text) = some found ∨
      ∃ later, fillers = later + 1 ∧
        Phrase.isFiller ((trimStart text).takeWhile isAlphanumeric) = true ∧
        resolve known later ((trimStart text).dropWhile isAlphanumeric) = .ok found := by
  cases hname : nameAt? known (trimStart text) with
  | some other =>
    rw [resolve_of_nameAt?_eq_some hname] at h
    exact .inl (congrArg some (Except.ok.inj h))
  | none =>
    right
    cases fillers with
    | zero =>
      rw [resolve, hname] at h
      contradiction
    | succ fillers =>
      rw [resolve, hname] at h
      dsimp only at h
      split at h
      · rename_i hfiller
        exact ⟨fillers, rfl, hfiller, h⟩
      · contradiction

theorem leadsTo_of_nameAt?_eq_some (h : nameAt? known (trimStart text) = some (target, rest))
    (fillers : Nat) : target ∈ known ∧ LeadsTo target.toList fillers text := by
  obtain ⟨hknown, hname, hends⟩ := of_nameAt?_eq_some h
  have hsplit : text.takeWhile isWhite ++ (target.toList ++ rest) = text := by
    rw [← hname, trimStart, List.takeWhile_append_dropWhile]
  have hleads : LeadsTo target.toList fillers
      (text.takeWhile isWhite ++ (target.toList ++ rest)) :=
    .arrive _ rest (List.all_eq_true.mp List.all_takeWhile) hends
  rw [hsplit] at hleads
  exact ⟨hknown, hleads⟩

theorem leadsTo_of_filler {fillers : Nat} {name : Text}
    (hfiller : Phrase.isFiller ((trimStart text).takeWhile isAlphanumeric) = true)
    (h : LeadsTo name fillers ((trimStart text).dropWhile isAlphanumeric)) :
    LeadsTo name (fillers + 1) text := by
  have hsplit : text.takeWhile isWhite ++ ((trimStart text).takeWhile isAlphanumeric ++
      (trimStart text).dropWhile isAlphanumeric) = text := by
    rw [List.takeWhile_append_dropWhile, trimStart, List.takeWhile_append_dropWhile]
  rw [← hsplit]
  exact .pass _ _ _ (List.all_eq_true.mp List.all_takeWhile) hfiller
    (forall_mem_head?_dropWhile isAlphanumeric (trimStart text)) h

/-- The induction is on the number of filler words that may still be passed. -/
theorem leadsTo_of_resolve_eq_ok {fillers : Nat}
    (h : resolve known fillers text = .ok (target, rest)) :
    target ∈ known ∧ LeadsTo target.toList fillers text := by
  induction fillers generalizing text with
  | zero =>
    obtain hfound | ⟨later, hlater, -, -⟩ := cases_of_resolve_eq_ok h
    · exact leadsTo_of_nameAt?_eq_some hfound 0
    · contradiction
  | succ fillers ih =>
    obtain hfound | ⟨later, hlater, hfiller, hbehind⟩ := cases_of_resolve_eq_ok h
    · exact leadsTo_of_nameAt?_eq_some hfound (fillers + 1)
    · obtain rfl := Nat.succ.inj hlater
      obtain ⟨hknown, hleads⟩ := ih hbehind
      exact ⟨hknown, leadsTo_of_filler hfiller hleads⟩

theorem states_of_at?_eq_some {before : Text}
    (h : at? known text = some (.resolved target phrase, rest))
    (hbefore : ∀ c ∈ before.getLast?, continuesWord c = false) :
    target ∈ known ∧ phrase ∈ Phrase.all ∧ States (before ++ text) phrase target := by
  rw [at?] at h
  split at h
  · rename_i found after hphrase
    split at h
    · rename_i hresolve
      obtain ⟨hmention, rfl⟩ := Prod.mk.inj (Option.some.inj h)
      obtain ⟨rfl, rfl⟩ := resolved.inj hmention
      obtain ⟨hvocabulary, hends, matched, rfl, hmatched⟩ := of_phrase?_eq_some hphrase
      obtain ⟨hknown, hleads⟩ := leadsTo_of_resolve_eq_ok hresolve
      exact ⟨hknown, hvocabulary, before, matched, after, rfl, hbefore, hmatched, hends, hleads⟩
    · simp at h
  · contradiction

/-- The induction is on the text that is left. A word may begin behind what was read before only
if that does not end inside of one. -/
theorem states_of_mem_scan {before : Text} {wordStart : Bool} {skip : Nat}
    (hstart : wordStart = true → ∀ c ∈ before.getLast?, continuesWord c = false)
    (h : .resolved target phrase ∈ scan known wordStart skip text) :
    target ∈ known ∧ phrase ∈ Phrase.all ∧ States (before ++ text) phrase target := by
  induction text generalizing before wordStart skip with
  | nil => contradiction
  | cons c rest ih =>
    have hnext : (!continuesWord c) = true →
        ∀ d ∈ (before ++ [c]).getLast?, continuesWord d = false := by
      simp
    have hrest : ∀ {skip}, .resolved target phrase ∈ scan known (!continuesWord c) skip rest →
        target ∈ known ∧ phrase ∈ Phrase.all ∧ States (before ++ c :: rest) phrase target := by
      intro skip hmem
      have hstates := ih hnext hmem
      rwa [List.append_assoc, List.singleton_append] at hstates
    cases skip with
    | succ skip => exact hrest h
    | zero =>
      rw [scan] at h
      split at h
      · rename_i mention after hmention
        cases wordStart with
        | false => contradiction
        | true =>
          obtain rfl | h := List.mem_cons.mp h
          · exact states_of_at?_eq_some hmention (hstart rfl)
          · exact hrest h
      · exact hrest h

theorem states_of_mem_all {body : Text} (h : .resolved target phrase ∈ all known body) :
    target ∈ known ∧ phrase ∈ Phrase.all ∧ States (plainProse body) phrase target := by
  have hstart : true = true → ∀ c ∈ ([] : Text).getLast?, continuesWord c = false := by
    simp
  exact states_of_mem_scan hstart h

end Mention

end DiagramSync
