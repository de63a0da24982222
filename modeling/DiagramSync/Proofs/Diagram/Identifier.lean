import DiagramSync.Proofs.Diagram.Distinct

/-!
The identifiers of entities, one by one: each is the sanitized name if that is free, and otherwise
the sanitized name with the first number that helps. Only the identifiers in front of it count, so
a name that is added at the end changes none of them.
-/

namespace DiagramSync.Label

open Text

/-! ### Characters -/

/-- A letter or `_`, and behind it letters, digits, `_` and `-`, all of them ASCII. -/
def IsIdentifier (text : Text) : Prop :=
  ∃ c rest, text = c :: rest ∧ (('A' ≤ c ∧ c ≤ 'Z') ∨ ('a' ≤ c ∧ c ≤ 'z') ∨ c = '_') ∧
    ∀ d ∈ rest, ('A' ≤ d ∧ d ≤ 'Z') ∨ ('a' ≤ d ∧ d ≤ 'z') ∨ ('0' ≤ d ∧ d ≤ '9') ∨
      d = '_' ∨ d = '-'

theorem isIdChar_iff {c : Char} : isIdChar c = true ↔
    ('A' ≤ c ∧ c ≤ 'Z') ∨ ('a' ≤ c ∧ c ≤ 'z') ∨ ('0' ≤ c ∧ c ≤ '9') ∨ c = '_' ∨ c = '-' := by
  simp [isIdChar, isAsciiAlphanum_iff, or_assoc]

/-- Of the characters of an identifier digits and dashes do not stand first. -/
theorem isIdChar_and_first_iff {c : Char} :
    (isIdChar c = true ∧ c.isDigit = false ∧ c ≠ '-') ↔
      ('A' ≤ c ∧ c ≤ 'Z') ∨ ('a' ≤ c ∧ c ≤ 'z') ∨ c = '_' := by
  have hdigit : c.isDigit = true ↔ '0' ≤ c ∧ c ≤ '9' := by
    simp [Char.isDigit, Char.le_def]
  rw [← Bool.not_eq_true, hdigit, isIdChar_iff]
  simp only [Char.le_def, UInt32.le_iff_toNat_le, ← Char.toNat_inj, ne_eq, Char.toNat_val,
    Char.reduceToNat]
  omega

theorem isIdentifier_iff {text : Text} : IsIdentifier text ↔
    IsId text ∧ ∀ c ∈ text.head?, c.isDigit = false ∧ c ≠ '-' := by
  cases text with
  | nil => simp [IsIdentifier, IsId]
  | cons c rest =>
    simp only [IsIdentifier, IsId, ← isIdChar_and_first_iff, ← isIdChar_iff, List.cons.injEq,
      List.forall_mem_cons, List.head?_cons, Option.mem_some_iff, ne_eq]
    grind

theorem isIdentifier_sanitize (name : String) : IsIdentifier (sanitize name) := by
  refine isIdentifier_iff.mpr ⟨isId_sanitize name, ?_⟩
  rw [sanitize]
  split
  · simp
  · rename_i c rest heq
    rw [heq]
    split
    · simp
    · rename_i hc
      simpa using hc

theorem isIdentifier_numbered {base : Text} (h : IsIdentifier base) (k : Nat) :
    IsIdentifier (numbered base k) := by
  obtain ⟨hbase, hhead⟩ := isIdentifier_iff.mp h
  refine isIdentifier_iff.mpr ⟨isId_numbered hbase k, ?_⟩
  rwa [numbered, List.head?_append_of_ne_nil _ hbase.1]

/-! ### One after another -/

theorem assignIds_append (taken : List Text) (front later : List String) :
    assignIds taken (front ++ later) =
      assignIds taken front ++ assignIds (taken ++ assignIds taken front) later := by
  induction front generalizing taken with
  | nil => simp [assignIds]
  | cons name rest ih =>
    simp only [List.cons_append, assignIds, ih, List.append_assoc, List.nil_append]

theorem take_identifiers_append (front later : List String) :
    (identifiers (front ++ later)).take front.length = identifiers front := by
  rw [identifiers, assignIds_append, List.map_append, ← length_identifiers front]
  exact List.take_left

/-- The base, or where it is taken the base with the smallest number behind it, from 2 on, that is
not taken with it. -/
inductive FirstFree (taken : List String) (base : String) : String → Prop where
  | plain : base ∉ taken → FirstFree taken base base
  | numbered (n : Nat) : base ∈ taken → 2 ≤ n → s!"{base}_{n}" ∉ taken →
      (∀ m, 2 ≤ m → m < n → s!"{base}_{m}" ∈ taken) → FirstFree taken base s!"{base}_{n}"

theorem ofList_numbered (base : Text) (k : Nat) :
    String.ofList (numbered base k) = s!"{String.ofList base}_{k + 2}" := by
  have hwritten : s!"{String.ofList base}_{k + 2}" =
      String.ofList base ++ "_" ++ toString (k + 2) := rfl
  rw [hwritten, ← String.toList_inj]
  simp [numbered]

theorem firstFree_fresh (base : Text) (taken : List Text) :
    FirstFree (taken.map String.ofList) (String.ofList base)
      (String.ofList (fresh base taken)) := by
  have hmem : ∀ id, String.ofList id ∈ taken.map String.ofList ↔ id ∈ taken := fun id =>
    List.mem_map_of_injective fun _ _ => String.ofList_injective
  by_cases h : base ∈ taken
  · obtain ⟨k, hfresh, hfree, hbefore⟩ := exists_fresh_eq_numbered h
    rw [hfresh, ofList_numbered]
    refine .numbered (k + 2) ((hmem base).mpr h) (by omega) ?_ fun m hm hlt => ?_
    · rwa [← ofList_numbered, hmem]
    · obtain ⟨j, rfl⟩ := Nat.exists_eq_add_of_le' hm
      rw [← ofList_numbered, hmem]
      exact hbefore j (by omega)
  · rw [fresh_of_not_mem h]
    exact .plain fun hbase => h ((hmem base).mp hbase)

theorem firstFree_identifiers {names : List String} {index : Nat} {name id : String}
    (hname : names[index]? = some name) (hid : (identifiers names)[index]? = some id) :
    FirstFree ((identifiers names).take index) (String.ofList (sanitize name)) id := by
  obtain ⟨front, later, rfl, rfl⟩ : ∃ front later, names = front ++ name :: later ∧
      front.length = index := by
    obtain ⟨hindex, rfl⟩ := List.getElem?_eq_some_iff.mp hname
    exact ⟨names.take index, names.drop (index + 1),
      by rw [← List.drop_eq_getElem_cons, List.take_append_drop],
      by rw [List.length_take, min_eq_left (Nat.le_of_lt hindex)]⟩
  have hnext : (identifiers (front ++ name :: later))[front.length]? =
      some (String.ofList (fresh (sanitize name) (assignIds [] front))) := by
    rw [identifiers, assignIds_append, List.map_append, List.getElem?_append_right] <;>
      simp [assignIds, length_assignIds]
  obtain rfl := Option.some.inj (hid.symm.trans hnext)
  rw [take_identifiers_append]
  exact firstFree_fresh _ _

theorem isIdentifier_of_mem_identifiers {names : List String} {id : String}
    (h : id ∈ identifiers names) : IsIdentifier id.toList := by
  obtain ⟨text, htext, rfl⟩ := List.mem_map.mp h
  rw [String.toList_ofList]
  exact forall_mem_assignIds isIdentifier_sanitize (fun _ k hbase => isIdentifier_numbered hbase k)
    text htext

/-- There is one identifier for each name, no two are alike, and each is the first that is free
behind those in front of it. Names that follow change none of them. -/
theorem identifiers_first_free_in_order (names : List String) :
    (identifiers names).length = names.length ∧ (identifiers names).Nodup ∧
      (∀ id ∈ identifiers names, IsIdentifier id.toList) ∧
      (∀ index name id, names[index]? = some name → (identifiers names)[index]? = some id →
        FirstFree ((identifiers names).take index) (String.ofList (sanitize name)) id) ∧
      ∀ later, (identifiers (names ++ later)).take names.length = identifiers names :=
  ⟨length_identifiers names, nodup_identifiers names, fun _ => isIdentifier_of_mem_identifiers,
    fun _ _ _ => firstFree_identifiers, take_identifiers_append names⟩

/-- The number that is made for one name is not free for another that is written with it. -/
theorem identifiers_A_A_A_2 : identifiers ["A", "A", "A_2"] = ["A", "A_2", "A_2_2"] ∧
    IsIdentifier "A_2_2".toList ∧ FirstFree ["A", "A_2"] "A_2" "A_2_2" := by
  have hall : identifiers ["A", "A", "A_2"] = ["A", "A_2", "A_2_2"] := by decide +kernel
  obtain ⟨-, -, hidentifier, hfree, -⟩ := identifiers_first_free_in_order ["A", "A", "A_2"]
  rw [hall] at hidentifier hfree
  exact ⟨hall, hidentifier _ (by decide), hfree 2 "A_2" "A_2_2" rfl rfl⟩

end DiagramSync.Label
