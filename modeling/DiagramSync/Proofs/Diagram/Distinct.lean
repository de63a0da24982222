import DiagramSync.Proofs.Text.Search

/-!
Labels, node letters and identifiers keep apart what they stand for: a label can be decoded, the
letters of a node have a value, and identifiers that are taken are not given again.
-/

namespace DiagramSync

open Text

/-! ### Texts and numbers -/

/-- There is one way to cut a text where a stretch of characters of one class ends. -/
theorem Text.append_inj_of_class {keep : Char → Bool} {a a' b b' : Text} (h : a ++ b = a' ++ b')
    (ha : ∀ c ∈ a, keep c = true) (ha' : ∀ c ∈ a', keep c = true)
    (hb : ∀ c ∈ b.head?, keep c = false) (hb' : ∀ c ∈ b'.head?, keep c = false) :
    a = a' ∧ b = b' := by
  have htake : ∀ {a b : Text}, (∀ c ∈ a, keep c = true) → (∀ c ∈ b.head?, keep c = false) →
      (a ++ b).takeWhile keep = a := by
    intro a b ha hb
    rw [List.takeWhile_append_of_pos ha]
    cases b with
    | nil => simp
    | cons c rest => rw [List.takeWhile_cons_of_neg (by simpa using hb), List.append_nil]
  have hfront : a = a' := by rw [← htake ha hb, h, htake ha' hb']
  subst hfront
  exact ⟨rfl, List.append_cancel_left h⟩

theorem Text.toString_nat_injective {m n : Nat} (h : (toString m).toList = (toString n).toList) :
    m = n := by
  have hvalue : ∀ n : Nat, Nat.ofDigitChars 10 (toString n).toList 0 = n := by
    intro n
    rw [Nat.toString_eq_ofList_toDigits, String.toList_ofList, Nat.ofDigitChars_ten_toDigits]
  rw [← hvalue m, h, hvalue]

/-- A number is read back from a text that goes on with another character than a digit. -/
theorem Text.toString_append_inj {m n : Nat} {b b' : Text}
    (h : (toString m).toList ++ b = (toString n).toList ++ b')
    (hb : ∀ c ∈ b.head?, c.isDigit = false) (hb' : ∀ c ∈ b'.head?, c.isDigit = false) :
    m = n ∧ b = b' := by
  obtain ⟨hdigits, hrest⟩ := append_inj_of_class h (fun _ => Label.isDigit_of_mem_toString)
    (fun _ => Label.isDigit_of_mem_toString) hb hb'
  exact ⟨toString_nat_injective hdigits, hrest⟩

namespace Label

/-! ### One line of a text -/

/-- The parts of a text between its line breaks, in order, save for those that are empty. -/
inductive Parts : Text → List Text → Prop where
  | nil : Parts [] []
  | skip (c : Char) {text : Text} {parts : List Text} :
      c = '\r' ∨ c = '\n' → Parts text parts → Parts (c :: text) parts
  | last (part : Text) : part ≠ [] → Unbroken part → Parts part [part]
  | next (part : Text) (c : Char) {text : Text} {parts : List Text} :
      part ≠ [] → Unbroken part → c = '\r' ∨ c = '\n' → Parts text parts →
      Parts (part ++ c :: text) (part :: parts)

/-- The line holds the parts of the text with single spaces between them, save for white space
around the whole. -/
def OnOneLine (text line : Text) : Prop :=
  ∃ parts, Parts text parts ∧ Trimmed line ∧
    ∃ indent white, [' '].intercalate parts = indent ++ (line ++ white) ∧
      (∀ c ∈ indent, isWhite c = true) ∧ ∀ c ∈ white, isWhite c = true

/-- The texts are the same on one line. -/
def SameLine (text text' : String) : Prop :=
  ∃ line, OnOneLine text.toList line ∧ OnOneLine text'.toList line

theorem Parts.eq_filter {text : Text} {parts : List Text} (h : Parts text parts) : parts =
    (text.splitOnP fun c => c == '\r' || c == '\n').filter fun part => !part.isEmpty := by
  have hbreak : ∀ {c : Char}, c = '\r' ∨ c = '\n' → (c == '\r' || c == '\n') = true := by
    simp
  have hkept : ∀ {part : Text}, Unbroken part →
      ∀ c ∈ part, (c == '\r' || c == '\n') = false := by
    intro part hpart c hc
    simp [hpart c hc]
  induction h with
  | nil => rfl
  | skip c hc _ ih =>
    rw [List.splitOnP_cons_eq_if_modifyHead, if_pos (hbreak hc), List.filter_cons_of_neg (by simp)]
    exact ih
  | last part hne hpart =>
    rw [List.splitOnP_eq_singleton (hkept hpart), List.filter_cons_of_pos (by simpa using hne)]
    rfl
  | next part c hne hpart hc _ ih =>
    rw [List.splitOnP_append_cons_of_forall_mem (hkept hpart) c (hbreak hc),
      List.filter_cons_of_pos (by simpa using hne), ih]

/-- A character in front of a text goes to its first part, unless a line break is between. -/
theorem Parts.exists_cons {c : Char} (hc : c ≠ '\n' ∧ c ≠ '\r') {text : Text} {parts : List Text}
    (h : Parts text parts) : ∃ parts', Parts (c :: text) parts' := by
  have hunbroken : ∀ {part : Text}, Unbroken part → Unbroken (c :: part) :=
    fun hpart => List.forall_mem_cons.mpr ⟨hc, hpart⟩
  cases h with
  | nil => exact ⟨_, .last [c] (by simp) (hunbroken (List.forall_mem_nil _))⟩
  | skip d hd hrest => exact ⟨_, .next [c] d (by simp) (hunbroken (List.forall_mem_nil _)) hd hrest⟩
  | last _ _ hpart => exact ⟨_, .last (c :: text) (by simp) (hunbroken hpart)⟩
  | next part d _ hpart hd hrest =>
    exact ⟨_, .next (c :: part) d (by simp) (hunbroken hpart) hd hrest⟩

theorem exists_parts (text : Text) : ∃ parts, Parts text parts := by
  induction text with
  | nil => exact ⟨[], .nil⟩
  | cons c rest ih =>
    obtain ⟨parts, hparts⟩ := ih
    by_cases hc : c = '\r' ∨ c = '\n'
    · exact ⟨parts, .skip c hc hparts⟩
    · exact hparts.exists_cons (by simpa [and_comm] using hc)

theorem onOneLine_iff {text line : Text} : OnOneLine text line ↔ flatten text = line := by
  rw [flatten, trim_eq_iff]
  constructor
  · rintro ⟨parts, hparts, hline⟩
    rw [← hparts.eq_filter]
    exact hline
  · intro hline
    obtain ⟨parts, hparts⟩ := exists_parts text
    rw [← hparts.eq_filter] at hline
    exact ⟨parts, hparts, hline⟩

theorem sameLine_iff {text text' : String} :
    SameLine text text' ↔ flatten text.toList = flatten text'.toList := by
  simp [SameLine, onOneLine_iff, eq_comm]

instance (text text' : String) : Decidable (SameLine text text') :=
  decidable_of_iff _ sameLine_iff.symm

/-! ### Labels -/

/-- The text that stands between the quotes of a label, its codes read as the characters they stand
for. -/
def unescape : Text → Text
  | '#' :: '3' :: '5' :: ';' :: rest => '#' :: unescape rest
  | '#' :: 'q' :: 'u' :: 'o' :: 't' :: ';' :: rest => '"' :: unescape rest
  | c :: rest => c :: unescape rest
  | [] => []

theorem unescape_cons {c : Char} (hc : c ≠ '#') (rest : Text) :
    unescape (c :: rest) = c :: unescape rest := by
  rw [unescape]
  · rintro rest' rfl
    contradiction
  · rintro rest' rfl
    contradiction

theorem unescape_flatMap (text : Text) : unescape (text.flatMap escapeChar) = text := by
  induction text with
  | nil => rfl
  | cons c rest ih =>
    rw [List.flatMap_cons, escapeChar]
    split
    · rename_i hc
      rw [hc]
      exact congrArg ('#' :: ·) ih
    · split
      · rename_i hc
        rw [hc]
        exact congrArg ('"' :: ·) ih
      · rename_i hc _
        rw [List.singleton_append, unescape_cons hc, ih]

/-- Labels are the same where the texts are, once they stand on one line. -/
theorem escape_eq_escape_iff {text text' : String} :
    escape text = escape text' ↔ SameLine text text' := by
  rw [sameLine_iff]
  constructor
  · intro h
    have hlabels := String.ofList_injective h
    rw [← unescape_flatMap (flatten text.toList), hlabels, unescape_flatMap]
  · intro h
    rw [escape, h, escape]

/-! ### Node letters -/

/-- The number that the letters stand for. -/
def lettersValue (letters : Text) : Nat :=
  letters.foldl (fun value c => 26 * value + (c.toNat - 'A'.toNat + 1)) 0

theorem toNat_letter {digit : Nat} (h : digit < 26) : (letter digit).toNat = 'A'.toNat + digit := by
  have hall : ∀ digit < 26, (letter digit).toNat = 'A'.toNat + digit := by decide
  exact hall digit h

theorem lettersValue_lettersOf (n : Nat) : lettersValue (lettersOf n) = n := by
  induction n using lettersOf.induct with
  | case1 => simp [lettersOf, lettersValue]
  | case2 n hn ih =>
    have hlast := toNat_letter (Nat.mod_lt (n - 1) (by decide : 0 < 26))
    rw [lettersOf, if_neg hn, lettersValue, List.foldl_append, ← lettersValue, ih, List.foldl_cons,
      List.foldl_nil, hlast]
    omega

theorem letters_injective {index index' : Nat} (h : letters index = letters index') :
    index = index' := by
  have htexts := String.ofList_injective h
  have hvalues := congrArg lettersValue htexts
  rw [lettersValue_lettersOf, lettersValue_lettersOf] at hvalues
  omega

/-! ### Identifiers -/

theorem numbered_injective {base : Text} {k k' : Nat} (h : numbered base k = numbered base k') :
    k = k' := by
  have hdigits := (List.cons.inj (List.append_cancel_left h)).2
  have hnumbers := toString_nat_injective hdigits
  omega

theorem nodup_candidates (base : Text) (count : Nat) : (candidates base count).Nodup := by
  rw [candidates, List.nodup_cons]
  constructor
  · intro hmem
    obtain ⟨k, -, hk⟩ := List.mem_map.mp hmem
    have hlength := congrArg List.length hk
    simp [numbered] at hlength
  · exact List.nodup_range.map fun _ _ => numbered_injective

/-- There are more candidates than identifiers that are taken, so one of them is free. -/
theorem exists_candidate_not_mem (base : Text) (taken : List Text) :
    ∃ id ∈ candidates base taken.length, id ∉ taken := by
  by_contra hnone
  push Not at hnone
  have hlength := (List.subperm_of_subset (nodup_candidates base taken.length) hnone).length_le
  simp [candidates] at hlength

theorem fresh_of_not_mem {base : Text} {taken : List Text} (h : base ∉ taken) :
    fresh base taken = base := by
  simp [fresh, candidates, h]

/-- The numbers are tried in their order, so the first one that helps is taken. -/
theorem exists_fresh_eq_numbered {base : Text} {taken : List Text} (h : base ∈ taken) :
    ∃ k, fresh base taken = numbered base k ∧ numbered base k ∉ taken ∧
      ∀ j < k, numbered base j ∈ taken := by
  have hskip : fresh base taken = (((List.range taken.length).find? fun k =>
      !taken.contains (numbered base k)).map (numbered base)).getD base := by
    simp [fresh, candidates, h, List.find?_map]
  obtain ⟨id, hid, hfree⟩ := exists_candidate_not_mem base taken
  obtain ⟨n, hn, rfl⟩ : ∃ n ∈ List.range taken.length, numbered base n = id := by
    obtain rfl | hid := List.mem_cons.mp hid
    · contradiction
    · exact List.mem_map.mp hid
  cases hfind : (List.range taken.length).find? fun k => !taken.contains (numbered base k) with
  | none =>
    have hnone := List.find?_eq_none.mp hfind n hn
    exact absurd (by simpa using hnone) hfree
  | some k =>
    obtain ⟨hk, -, hbefore⟩ := List.find?_range_eq_some.mp hfind
    rw [hskip, hfind]
    exact ⟨k, rfl, by simpa using hk, by simpa using hbefore⟩

theorem fresh_not_mem (base : Text) (taken : List Text) : fresh base taken ∉ taken := by
  by_cases h : base ∈ taken
  · obtain ⟨k, hfresh, hfree, -⟩ := exists_fresh_eq_numbered h
    exact hfresh ▸ hfree
  · exact (fresh_of_not_mem h).symm ▸ h

theorem not_mem_of_mem_assignIds {taken : List Text} {names : List String} :
    ∀ id ∈ assignIds taken names, id ∉ taken := by
  induction names generalizing taken with
  | nil => exact List.forall_mem_nil _
  | cons name rest ih =>
    rw [assignIds, List.forall_mem_cons]
    exact ⟨fresh_not_mem _ taken, fun id hid hmem => ih id hid (List.mem_append_left _ hmem)⟩

theorem nodup_assignIds (taken : List Text) (names : List String) :
    (assignIds taken names).Nodup := by
  induction names generalizing taken with
  | nil => exact List.nodup_nil
  | cons name rest ih =>
    rw [assignIds, List.nodup_cons]
    refine ⟨fun hmem => ?_, ih _⟩
    exact not_mem_of_mem_assignIds _ hmem (List.mem_append_right _ (List.mem_singleton_self _))

theorem length_assignIds (taken : List Text) (names : List String) :
    (assignIds taken names).length = names.length := by
  induction names generalizing taken with
  | nil => rfl
  | cons name rest ih => rw [assignIds, List.length_cons, ih, List.length_cons]

theorem nodup_identifiers (names : List String) : (identifiers names).Nodup :=
  (nodup_assignIds [] names).map fun _ _ => String.ofList_injective

theorem length_identifiers (names : List String) : (identifiers names).length = names.length := by
  rw [identifiers, List.length_map, length_assignIds]

end Label
end DiagramSync
