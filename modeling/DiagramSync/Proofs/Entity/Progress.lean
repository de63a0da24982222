import DiagramSync.Proofs.Entity.Declaration
import DiagramSync.Proofs.Entity.Longest
import DiagramSync.Proofs.Text.Rounds

/-!
The prose about an entity is searched for declarations and for mentions by offsets, and the target of
a mention is looked for in rounds. All cuts are made between characters, every round brings the search
on, and what is found is what is read character by character.
-/

namespace DiagramSync

open Text

/-! ### Declarations -/

namespace Declaration

variable {text rest : Text} {declaration : Declaration}

/-- The declaration that begins a text, and its size in bytes. Only a small letter or `_` may begin
one. -/
def sized? (text : Text) : Option (Option (Declaration × Nat)) :=
  if text.head?.any fun c => c.isLower || c == '_' then
    some ((known? text).map fun found => (found.1, size text - size found.2))
  else
    some none

theorem type?_suffix {type : Text} (h : type? text = some (type, rest)) : rest <:+ text := by
  rw [type?] at h
  split at h
  · rename_i c letters after hspan
    have hafter : after <:+ text := by
      rw [(span1?_eq_some_iff.mp hspan).1]
      exact List.suffix_append _ after
    split at h
    · split at h
      · rename_i hbrackets
        obtain ⟨-, rfl⟩ := Prod.mk.inj (Option.some.inj h)
        exact (stripPrefix?_suffix hbrackets).trans hafter
      · obtain ⟨-, rfl⟩ := Prod.mk.inj (Option.some.inj h)
        exact hafter
    · contradiction
  · contradiction

theorem mark?_suffix {mark : KeyMark} (h : mark? text = some (mark, rest)) : rest <:+ text := by
  obtain ⟨after, hafter, h⟩ := Option.bind_eq_some_iff.mp h
  obtain ⟨spelling, -, h⟩ := List.exists_of_findSome?_eq_some h
  obtain ⟨behind, hbehind, hpair⟩ := Option.map_eq_some_iff.mp h
  obtain ⟨-, rfl⟩ := Prod.mk.inj hpair
  obtain ⟨spaces, hspaces, -⟩ := skipSpaces1?_eq_some_iff.mp hafter
  rw [hspaces]
  exact (stripPrefix?_suffix hbehind).trans (List.suffix_append spaces after)

theorem exists_name_of_parse? (h : parse? text = some (declaration, rest)) :
    ∃ name behind, text = name ++ (behind ++ rest) ∧ IsName name := by
  obtain ⟨⟨name, afterName⟩, hname, hread⟩ := Option.bind_eq_some_iff.mp h
  obtain ⟨afterColon, hcolon, hread⟩ := Option.bind_eq_some_iff.mp hread
  obtain ⟨⟨type, afterType⟩, htype, hread⟩ := Option.bind_eq_some_iff.mp hread
  have htypeSuffix : afterType <:+ afterName :=
    (type?_suffix htype).trans
      ((List.dropWhile_suffix isSpace).trans (stripPrefix?_suffix hcolon))
  have hsuffix : rest <:+ afterName := by
    dsimp only at hread
    split at hread
    · rename_i hmark
      obtain ⟨-, rfl⟩ := Prod.mk.inj (Option.some.inj hread)
      exact (mark?_suffix hmark).trans htypeSuffix
    · obtain ⟨-, rfl⟩ := Prod.mk.inj (Option.some.inj hread)
      exact htypeSuffix
  obtain ⟨behind, rfl⟩ := hsuffix
  exact ⟨name, behind, name?_eq_some_append hname, isName_of_name? hname⟩

theorem sizes_known? : Sizes sized? known? where
  none := by
    intro text hnone
    rw [sized?, hnone, Option.map_none, ite_self]
  some := by
    intro text rest declaration hsome
    obtain ⟨name, behind, rfl, hname⟩ := exists_name_of_parse? (parse?_of_known? hsome)
    refine ⟨name ++ behind, (List.append_assoc _ _ _).symm,
      List.append_ne_nil_of_left_ne_nil hname.ne_nil _, ?_⟩
    have hbegins : (name ++ (behind ++ rest)).head?.any (fun c => c.isLower || c == '_') = true := by
      cases name with
      | nil => exact absurd rfl hname.ne_nil
      | cons c name => simpa using hname.1
    rw [sized?, if_pos hbegins, hsome, Option.map_some, ← List.append_assoc, size_append,
      Nat.add_sub_cancel]

theorem scanProse_eq_items (wordStart : Bool) (skip : Nat) (text : Text) :
    scanProse wordStart skip text = items known? wordStart skip text := by
  induction text generalizing wordStart skip with
  | nil => rfl
  | cons c rest ih =>
    cases skip with
    | succ skip => exact ih _ skip
    | zero =>
      rw [scanProse, items]
      simp only [ih]
      cases if wordStart then known? (c :: rest) else none <;> rfl

end Declaration

/-! ### Targets -/

namespace Mention

variable {known : List String} {text rest : Text}

/-- Returns `true` if the text begins with the name, which a word ends with. Nothing is returned where
the text cannot be cut behind the name. -/
def begins? (text : Text) (name : String) : Option Bool :=
  if (stripPrefix? name.toList text).isSome then
    (slice? (size name.toList) (size text) text).map endsWord
  else
    some false

/-- Looks for a known name in at most this many rounds, of which each one but the last passes a filler
word. `rest` is what is left of `text`. Returns the name and how many bytes there are up to its end,
or the first word that is neither; nothing is returned where a cut cannot be made, or where the
search goes on behind the last round. -/
def target? (known : List String) (text : Text) :
    (rounds passed : Nat) → (rest : Text) → Option (Except String (String × Nat))
  | 0, _, _ => none
  | rounds + 1, passed, rest => do
    let rest := trimStart rest
    match ← known.findM? (begins? rest) with
    | some name => return .ok (name, size text - size rest + size name.toList)
    | none =>
      let width := size (rest.takeWhile isAlphanumeric)
      let word ← slice? 0 width rest
      if passed = Phrase.fillerLimit ∨ word = [] ∨ Phrase.isFiller word = false then
        return .error (describe word)
      else
        let behind ← slice? width (size rest) rest
        target? known text rounds (passed + 1) behind

/-- The mention that begins a text, and its size in bytes. -/
def sized? (known : List String) (text : Text) : Option (Option (Mention × Nat)) :=
  match phrase? text with
  | some (phrase, rest) => do
    let width := size text - size rest
    match ← target? known rest (Phrase.fillerLimit + 1) 0 rest with
    | .ok (target, consumed) => return some (.resolved target phrase, width + consumed)
    | .error reference => return some (.unresolved phrase reference, width)
  | none => some none

theorem begins?_eq (text : Text) (name : String) :
    begins? text name = some (readName? text name).isSome := by
  rw [begins?, readName?]
  cases hstrip : stripPrefix? name.toList text with
  | none => rfl
  | some rest =>
    have hcut : slice? (size name.toList) (size text) text = some rest :=
      slice?_size_eq_some_iff.mpr ⟨name.toList, stripPrefix?_eq_some_iff.mp hstrip, rfl⟩
    rw [Option.isSome_some, if_pos rfl, hcut]
    cases hends : endsWord rest <;> simp [hends]

theorem findM?_begins? (known : List String) (text : Text) :
    known.findM? (begins? text) = some ((nameAt? known text).map Prod.fst) := by
  rw [nameAt?_eq_findSome?]
  induction known with
  | nil => rfl
  | cons name known ih =>
    rw [List.findM?, begins?_eq]
    cases hread : readName? text name with
    | none => simpa [hread] using ih
    | some found =>
      obtain ⟨other, rest⟩ := found
      obtain ⟨rfl, -⟩ := readName?_eq_some_iff.mp hread
      simp [hread]

theorem target?_of_nameAt? {name : String} {after : Text} (hrest : rest <:+ text)
    (h : nameAt? known (trimStart rest) = some (name, after)) (rounds passed : Nat) :
    target? known text (rounds + 1) passed rest = some (.ok (name, size text - size after)) := by
  have hstart : trimStart rest = name.toList ++ after := (of_nameAt?_eq_some h).2.1
  have hle := size_le_of_suffix ((trimStart_suffix rest).trans hrest)
  have hsize : size text - size (trimStart rest) + size name.toList = size text - size after := by
    rw [hstart, size_append] at hle ⊢
    omega
  rw [target?]
  simp [findM?_begins?, h, hsize]

/-- A round that finds no name passes a word, if it may, and is the last one otherwise. -/
theorem target?_of_nameAt?_eq_none (h : nameAt? known (trimStart rest) = none)
    (rounds passed : Nat) :
    target? known text (rounds + 1) passed rest =
      if passed = Phrase.fillerLimit ∨
          Phrase.isFiller ((trimStart rest).takeWhile isAlphanumeric) = false then
        some (.error (describe ((trimStart rest).takeWhile isAlphanumeric)))
      else
        target? known text rounds (passed + 1) ((trimStart rest).dropWhile isAlphanumeric) := by
  have hcut : (trimStart rest).takeWhile isAlphanumeric ++
      (trimStart rest).dropWhile isAlphanumeric = trimStart rest :=
    List.takeWhile_append_dropWhile
  have hword : slice? 0 (size ((trimStart rest).takeWhile isAlphanumeric)) (trimStart rest) =
      some ((trimStart rest).takeWhile isAlphanumeric) := by
    have hfront := slice?_front ((trimStart rest).takeWhile isAlphanumeric)
      ((trimStart rest).dropWhile isAlphanumeric)
    rwa [hcut] at hfront
  have hbehind : slice? (size ((trimStart rest).takeWhile isAlphanumeric))
      (size (trimStart rest)) (trimStart rest) =
        some ((trimStart rest).dropWhile isAlphanumeric) :=
    slice?_size_eq_some_iff.mpr ⟨_, hcut.symm, rfl⟩
  have hempty : (trimStart rest).takeWhile isAlphanumeric = [] ∨
      Phrase.isFiller ((trimStart rest).takeWhile isAlphanumeric) = false ↔
        Phrase.isFiller ((trimStart rest).takeWhile isAlphanumeric) = false := by
    apply or_iff_right_of_imp
    intro hempty
    rw [hempty]
    rfl
  rw [target?]
  simp only [findM?_begins?, h, hword, hbehind, hempty, Option.map_none, Option.bind_eq_bind,
    Option.bind_some]
  rfl

/-- The induction is on the filler words that may still be passed: with each of them a round is made,
and one more round ends the search. -/
theorem target?_eq {fillers passed rounds : Nat} (hrest : rest <:+ text)
    (hpassed : passed + fillers = Phrase.fillerLimit) (hrounds : fillers < rounds) :
    target? known text rounds passed rest = some ((resolve known fillers rest).map
      fun found => (found.1, size text - size found.2)) := by
  obtain ⟨rounds, rfl⟩ := Nat.exists_eq_add_one_of_ne_zero (Nat.ne_zero_of_lt hrounds)
  induction fillers generalizing passed rounds rest with
  | zero =>
    cases hname : nameAt? known (trimStart rest) with
    | some found =>
      rw [resolve_of_nameAt?_eq_some hname, target?_of_nameAt? hrest hname]
      rfl
    | none =>
      rw [resolve, hname, target?_of_nameAt?_eq_none hname, if_pos (.inl hpassed)]
      rfl
  | succ fillers ih =>
    cases hname : nameAt? known (trimStart rest) with
    | some found =>
      rw [resolve_of_nameAt?_eq_some hname, target?_of_nameAt? hrest hname]
      rfl
    | none =>
      have hnext : (trimStart rest).dropWhile isAlphanumeric <:+ text :=
        (List.dropWhile_suffix isAlphanumeric).trans ((trimStart_suffix rest).trans hrest)
      have hlimit : passed ≠ Phrase.fillerLimit := by omega
      obtain ⟨rounds, rfl⟩ : ∃ later, rounds = later + 1 := ⟨rounds - 1, by omega⟩
      rw [resolve, hname, target?_of_nameAt?_eq_none hname,
        ih hnext (by omega) _ (by omega)]
      cases hfiller : Phrase.isFiller ((trimStart rest).takeWhile isAlphanumeric) with
      | true => simp [hfiller, hlimit]
      | false => simp [hfiller, Except.map]

theorem nameAt?_suffix {name : String} (h : nameAt? known (trimStart text) = some (name, rest)) :
    rest <:+ text := by
  have hsuffix := List.suffix_append name.toList rest
  rw [← (of_nameAt?_eq_some h).2.1] at hsuffix
  exact hsuffix.trans (trimStart_suffix text)

/-- The induction is on the number of filler words that may be passed. -/
theorem resolve_suffix {fillers : Nat} {target : String}
    (h : resolve known fillers text = .ok (target, rest)) : rest <:+ text := by
  induction fillers generalizing text with
  | zero =>
    obtain hname | ⟨later, hlater, -, -⟩ := cases_of_resolve_eq_ok h
    · exact nameAt?_suffix hname
    · contradiction
  | succ fillers ih =>
    obtain hname | ⟨later, hlater, -, hbehind⟩ := cases_of_resolve_eq_ok h
    · exact nameAt?_suffix hname
    · obtain rfl := Nat.succ.inj hlater
      exact (ih hbehind).trans
        ((List.dropWhile_suffix isAlphanumeric).trans (trimStart_suffix text))

theorem exists_front_of_phrase? {phrase : Phrase} (h : phrase? text = some (phrase, rest)) :
    ∃ front, text = front ++ rest ∧ front ≠ [] := by
  have hne : ∀ phrase ∈ Phrase.all, phrase.text.toList ≠ [] := by decide
  obtain ⟨hphrase, -, matched, htext, hmatched⟩ := of_phrase?_eq_some h
  refine ⟨matched, htext, ?_⟩
  rintro rfl
  exact hne phrase hphrase (List.map_eq_nil_iff.mp hmatched.symm)

theorem sizes_at? (known : List String) : Sizes (sized? known) (at? known) where
  none := by
    intro text hnone
    rw [sized?]
    cases hphrase : phrase? text with
    | none => rfl
    | some found =>
      rw [at?, hphrase] at hnone
      dsimp only at hnone
      split at hnone <;> contradiction
  some := by
    intro text rest mention hsome
    rw [sized?]
    cases hphrase : phrase? text with
    | none =>
      rw [at?, hphrase] at hsome
      contradiction
    | some found =>
      obtain ⟨phrase, after⟩ := found
      obtain ⟨front, rfl, hne⟩ := exists_front_of_phrase? hphrase
      rw [at?, hphrase] at hsome
      dsimp only at hsome ⊢
      rw [target?_eq List.suffix_rfl rfl (Nat.lt_succ_self _)]
      cases hresolve : resolve known Phrase.fillerLimit after with
      | ok target =>
        obtain ⟨name, behind⟩ := target
        rw [hresolve] at hsome
        obtain ⟨rfl, rfl⟩ := Prod.mk.inj (Option.some.inj hsome)
        obtain ⟨between, rfl⟩ := resolve_suffix hresolve
        refine ⟨front ++ between, (List.append_assoc _ _ _).symm,
          List.append_ne_nil_of_left_ne_nil hne _, ?_⟩
        simp [Except.map]
      | error reference =>
        rw [hresolve] at hsome
        obtain ⟨rfl, rfl⟩ := Prod.mk.inj (Option.some.inj hsome)
        refine ⟨front, rfl, hne, ?_⟩
        simp [Except.map]

theorem scan_eq_items (known : List String) (wordStart : Bool) (skip : Nat) (text : Text) :
    scan known wordStart skip text = items (at? known) wordStart skip text := by
  induction text generalizing wordStart skip with
  | nil => rfl
  | cons c rest ih =>
    cases skip with
    | succ skip => exact ih _ skip
    | zero =>
      rw [scan, items]
      simp only [ih]
      cases if wordStart then at? known (c :: rest) else none <;> rfl

theorem isBoundary_of_target? {name : String} {width : Nat}
    (h : target? known text (Phrase.fillerLimit + 1) 0 text = some (.ok (name, width))) :
    isBoundary width text = true ∧ width ≤ size text := by
  rw [target?_eq List.suffix_rfl (Nat.zero_add _) (Nat.lt_succ_self _)] at h
  cases hresolve : resolve known Phrase.fillerLimit text with
  | error reference => simp [hresolve, Except.map] at h
  | ok found =>
    obtain ⟨target, rest⟩ := found
    obtain ⟨front, rfl⟩ := resolve_suffix hresolve
    obtain ⟨-, rfl⟩ : target = name ∧ size (front ++ rest) - size rest = width := by
      simpa [hresolve, Except.map] using h
    rw [isBoundary_iff]
    refine ⟨⟨front, rest, rfl, ?_⟩, Nat.sub_le _ _⟩
    rw [size_append, Nat.add_sub_cancel]

end Mention

/-! ### Progress -/

/-- The searches for declarations and for mentions come to an end: they cut the text between
characters only, each round brings them on and stays within the text, and the stretches that they
read do not overlap. A target is looked for in at most four rounds and ends within the text. -/
theorem Entity.searches_progress (known : List String) :
    (∀ text, ∃ rounds, Searches Declaration.sized? text 0 rounds ∧ Progress text rounds ∧
      rounds.filterMap Round.found = Declaration.inProse text) ∧
    (∀ body, ∃ rounds, Searches (Mention.sized? known) (Mention.plainProse body) 0 rounds ∧
      Progress (Mention.plainProse body) rounds ∧
      rounds.filterMap Round.found = Mention.all known body) ∧
    ∀ text, Mention.target? known text 4 0 text =
        some ((Mention.resolve known Phrase.fillerLimit text).map
          fun found => (found.1, size text - size found.2)) ∧
      ∀ name width, Mention.target? known text 4 0 text = some (.ok (name, width)) →
        isBoundary width text = true ∧ width ≤ size text := by
  refine ⟨fun text => ?_, fun body => ?_, fun text => ⟨?_, ?_⟩⟩
  · rw [Declaration.inProse, Declaration.scanProse_eq_items]
    exact exists_searches Declaration.sizes_known? text
  · rw [Mention.all, Mention.scan_eq_items]
    exact exists_searches (Mention.sizes_at? known) (Mention.plainProse body)
  · exact Mention.target?_eq List.suffix_rfl (Nat.zero_add _) (Nat.lt_succ_self _)
  · exact fun name width => Mention.isBoundary_of_target?

/-- A name behind a filler word, in text with characters of more than one byte. -/
theorem Entity.searches_progress_filler :
    let text := " the Bücher – all.".toList
    Mention.target? ["Buch", "Bücher"] text 4 0 text = some (.ok ("Bücher", 12)) ∧
      isBoundary 12 text = true ∧ 12 ≤ size text := by
  intro text
  obtain ⟨-, -, htarget⟩ := Entity.searches_progress ["Buch", "Bücher"]
  have hfound : Mention.target? ["Buch", "Bücher"] text 4 0 text = some (.ok ("Bücher", 12)) := by
    decide +kernel
  exact ⟨hfound, (htarget text).2 "Bücher" 12 hfound⟩

end DiagramSync
