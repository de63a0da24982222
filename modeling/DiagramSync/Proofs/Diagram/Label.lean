import DiagramSync.Diagram.Label

/-!
The characters of labels and identifiers: a label has no line break, an identifier has nothing
but letters, digits, underscores and dashes.
-/

namespace DiagramSync

open Text

namespace Text

/-- What holds of all characters of a text is decided along the text, not by a walk through all
characters that there are. -/
instance (priority := high) {p : Char → Prop} [DecidablePred p] (text : Text) :
    Decidable (∀ c ∈ text, p c) :=
  List.decidableBAll p text

instance (priority := high) {p : Char → Prop} [DecidablePred p] (char : Option Char) :
    Decidable (∀ c ∈ char, p c) :=
  Option.decidableForallMem char

/-- The text stands on one line. -/
def Unbroken (text : Text) : Prop :=
  ∀ c ∈ text, c ≠ '\n' ∧ c ≠ '\r'

instance (text : Text) : Decidable (Unbroken text) :=
  List.decidableBAll _ text

@[simp] theorem unbroken_append {a b : Text} :
    Unbroken (a ++ b) ↔ Unbroken a ∧ Unbroken b := by
  simp only [Unbroken, List.forall_mem_append]

theorem Unbroken.of_subset {a b : Text} (hb : Unbroken b) (h : ∀ c ∈ a, c ∈ b) : Unbroken a :=
  fun c hc => hb c (h c hc)

theorem Unbroken.feed_not_mem {text : Text} (h : Unbroken text) : '\n' ∉ text :=
  fun hmem => (h '\n' hmem).1 rfl

theorem mem_of_mem_trimEndWhere {drop : Char → Bool} {text : Text} {c : Char}
    (h : c ∈ trimEndWhere drop text) : c ∈ text := by
  rw [trimEndWhere, List.mem_reverse] at h
  exact List.mem_reverse.mp ((List.dropWhile_sublist drop).subset h)

theorem mem_of_mem_trim {text : Text} {c : Char} (h : c ∈ trim text) : c ∈ text :=
  (List.dropWhile_sublist isWhite).subset (mem_of_mem_trimEndWhere h)

theorem mem_of_mem_splitOnP {split : Char → Bool} {text part : Text}
    (h : part ∈ text.splitOnP split) {c : Char} (hc : c ∈ part) :
    c ∈ text ∧ split c = false := by
  induction text generalizing part with
  | nil =>
    rw [List.splitOnP_nil, List.mem_singleton] at h
    rw [h] at hc
    contradiction
  | cons first rest ih =>
    rw [List.splitOnP_cons_eq_if_modifyHead] at h
    split at h
    · obtain rfl | h := List.mem_cons.mp h
      · contradiction
      · exact (ih h hc).imp (List.mem_cons_of_mem first) id
    · rename_i hsplit
      obtain ⟨part', parts, hparts⟩ := List.exists_cons_of_ne_nil (List.splitOnP_ne_nil split rest)
      rw [hparts] at h ih
      rw [List.modifyHead_cons, List.mem_cons] at h
      obtain rfl | h := h
      · obtain rfl | hc := List.mem_cons.mp hc
        · exact ⟨List.mem_cons_self, by simpa using hsplit⟩
        · exact (ih List.mem_cons_self hc).imp (List.mem_cons_of_mem first) id
      · exact (ih (List.mem_cons_of_mem _ h) hc).imp (List.mem_cons_of_mem first) id

theorem forall_mem_intercalate {p : Char → Prop} {separator : Text}
    (hseparator : ∀ c ∈ separator, p c) {parts : List Text}
    (h : ∀ part ∈ parts, ∀ c ∈ part, p c) :
    ∀ c ∈ separator.intercalate parts, p c := by
  induction parts with
  | nil => exact List.forall_mem_nil _
  | cons part rest ih =>
    rw [List.forall_mem_cons] at h
    cases rest with
    | nil => simpa using h.1
    | cons next rest =>
      rw [List.intercalate_cons_cons, List.forall_mem_append, List.forall_mem_append]
      exact ⟨⟨h.1, hseparator⟩, ih h.2⟩

theorem unbroken_intercalate {parts : List Text} (h : ∀ part ∈ parts, Unbroken part) :
    Unbroken ([' '].intercalate parts) :=
  forall_mem_intercalate (by decide) h

/-- The text is not empty and free of spaces, line breaks and angle brackets. -/
def Solid (text : Text) : Prop :=
  text ≠ [] ∧ ∀ c ∈ text, c ∉ " \t\n\r<".toList

theorem solid_of_forall {keep : Char → Bool} (hkeep : " \t\n\r<".toList.any keep = false)
    {text : Text} (hne : text ≠ []) (h : ∀ c ∈ text, keep c = true) : Solid text := by
  refine ⟨hne, fun c hc hmem => ?_⟩
  rw [List.any_eq_false] at hkeep
  exact hkeep c hmem (h c hc)

theorem Solid.unbroken {text : Text} (h : Solid text) : Unbroken text := by
  intro c hc
  have hsolid := h.2 c hc
  constructor
  · rintro rfl
    exact hsolid (by decide)
  · rintro rfl
    exact hsolid (by decide)

end Text

namespace Label

/-! ### Quoted labels -/

theorem unbroken_flatten (text : Text) : Unbroken (flatten text) := by
  have hparts : ∀ part ∈ (text.splitOnP fun c => c == '\r' || c == '\n').filter
      (fun part => !part.isEmpty), Unbroken part := by
    intro part hpart c hc
    have hsplit := (mem_of_mem_splitOnP (List.mem_filter.mp hpart).1 hc).2
    simp only [Bool.or_eq_false_iff, beq_eq_false_iff_ne] at hsplit
    exact hsplit.symm
  exact (unbroken_intercalate hparts).of_subset fun _ => mem_of_mem_trim

theorem unbroken_escape (text : String) : Unbroken (escape text).toList := by
  rw [escape, String.toList_ofList]
  intro c hc
  obtain ⟨d, hd, hc⟩ := List.mem_flatMap.mp hc
  have hkept := unbroken_flatten text.toList d hd
  rw [escapeChar] at hc
  split at hc
  · exact (by decide : Unbroken "#35;".toList) c hc
  · split at hc
    · exact (by decide : Unbroken "#quot;".toList) c hc
    · rwa [List.mem_singleton.mp hc]

theorem quote_not_mem_escape (text : String) : '"' ∉ (escape text).toList := by
  rw [escape, String.toList_ofList, List.mem_flatMap]
  rintro ⟨c, -, hc⟩
  rw [escapeChar] at hc
  split at hc
  · exact absurd hc (by decide)
  · split at hc
    · exact absurd hc (by decide)
    · rename_i hquote
      exact hquote (List.mem_singleton.mp hc).symm

/-! ### Identifiers -/

/-- The text is not empty and made of characters of identifiers. -/
def IsId (text : Text) : Prop :=
  text ≠ [] ∧ ∀ c ∈ text, isIdChar c = true

theorem isWhite_of_isIdChar {c : Char} (h : isIdChar c = true) : isWhite c = false := by
  have hrange : 45 ≤ c.toNat ∧ c.toNat ≤ 122 := by
    unfold isIdChar isAsciiAlphanum Char.isAlphanum Char.isAlpha Char.isUpper Char.isLower
      Char.isDigit at h
    simp only [Bool.or_eq_true, Bool.and_eq_true, decide_eq_true_eq, beq_iff_eq, ge_iff_le,
      UInt32.le_iff_toNat_le, Char.reduceVal, UInt32.reduceToNat, Char.toNat_val] at h
    obtain (((_ | _) | _) | rfl) | rfl := h <;> first | omega | decide
  simp only [isWhite, Bool.or_eq_false_iff, Bool.and_eq_false_iff, decide_eq_false_iff_not,
    beq_eq_false_iff_ne]
  omega

theorem IsId.solid {text : Text} (h : IsId text) : Solid text :=
  solid_of_forall (by decide) h.1 h.2

theorem isIdChar_of_isAsciiAlphanum {c : Char} (h : isAsciiAlphanum c = true) :
    isIdChar c = true := by
  simp [isIdChar, h]

theorem isDigit_of_mem_toString {n : Nat} {c : Char} (hc : c ∈ (toString n).toList) :
    c.isDigit = true := by
  rw [Nat.toString_eq_ofList_toDigits, String.toList_ofList] at hc
  exact Nat.isDigit_of_mem_toDigits (by decide) (by decide) hc

theorem isAsciiAlphanum_of_mem_toString {n : Nat} {c : Char} (hc : c ∈ (toString n).toList) :
    isAsciiAlphanum c = true := by
  simp [isAsciiAlphanum, Char.isAlphanum, isDigit_of_mem_toString hc]

theorem isAsciiAlphanum_letter {digit : Nat} (h : digit < 26) :
    isAsciiAlphanum (letter digit) = true := by
  have hall : ∀ digit < 26, isAsciiAlphanum (letter digit) = true := by decide
  exact hall digit h

theorem isAsciiAlphanum_of_mem_lettersOf {n : Nat} :
    ∀ c ∈ lettersOf n, isAsciiAlphanum c = true := by
  induction n using lettersOf.induct with
  | case1 => simp [lettersOf]
  | case2 n hn ih =>
    rw [lettersOf, if_neg hn, List.forall_mem_append, List.forall_mem_singleton]
    exact ⟨ih, isAsciiAlphanum_letter (Nat.mod_lt _ (by decide))⟩

theorem isId_sanitize (name : String) : IsId (sanitize name) := by
  have hmap : ∀ c ∈ (trim name.toList).map (fun c => if isIdChar c then c else '_'),
      isIdChar c = true := by
    intro c hc
    obtain ⟨d, -, rfl⟩ := List.mem_map.mp hc
    split
    · assumption
    · decide
  rw [sanitize]
  split
  · exact ⟨by simp, by simp [isIdChar]⟩
  · rename_i heq
    split
    · exact ⟨by simp, List.forall_mem_cons.mpr ⟨by decide, hmap⟩⟩
    · exact ⟨by simp [heq], hmap⟩

/-- What holds of the names as identifiers, and of what gets a number behind it, holds of all
identifiers. -/
theorem forall_mem_assignIds {p : Text → Prop} (hsanitize : ∀ name, p (sanitize name))
    (hnumbered : ∀ base k, p base → p (numbered base k)) {taken : List Text}
    {names : List String} : ∀ id ∈ assignIds taken names, p id := by
  have hfresh : ∀ base taken, p base → p (fresh base taken) := by
    intro base taken hbase
    have hcandidates : ∀ id ∈ candidates base taken.length, p id := by
      rw [candidates, List.forall_mem_cons, List.forall_mem_map]
      exact ⟨hbase, fun k _ => hnumbered base k hbase⟩
    rw [fresh]
    cases hfind : (candidates base taken.length).find? fun id => !taken.contains id with
    | none => exact hbase
    | some id => exact hcandidates id (List.mem_of_find?_eq_some hfind)
  induction names generalizing taken with
  | nil => exact List.forall_mem_nil _
  | cons name rest ih =>
    rw [assignIds, List.forall_mem_cons]
    exact ⟨hfresh _ taken (hsanitize name), ih⟩

theorem isId_numbered {base : Text} (hbase : IsId base) (k : Nat) : IsId (numbered base k) := by
  refine ⟨by simp [numbered], ?_⟩
  rw [numbered, List.forall_mem_append, List.forall_mem_cons]
  exact ⟨hbase.2, by decide, fun c hc =>
    isIdChar_of_isAsciiAlphanum (isAsciiAlphanum_of_mem_toString hc)⟩

theorem isId_of_mem_identifiers {names : List String} {id : String}
    (h : id ∈ identifiers names) : IsId id.toList := by
  obtain ⟨text, htext, rfl⟩ := List.mem_map.mp h
  rw [String.toList_ofList]
  exact forall_mem_assignIds isId_sanitize (fun _ k hbase => isId_numbered hbase k) text htext

end Label
end DiagramSync
