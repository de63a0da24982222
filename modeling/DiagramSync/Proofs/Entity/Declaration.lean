import DiagramSync.Entity.OfDocument
import DiagramSync.Proofs.Text.Search

/-!
Declarations in code spans. One that fills its span is read whatever its type is called, prose
without a colon declares nothing, and declarations of different names become one attribute each.
-/

namespace DiagramSync

open Text

namespace Declaration

/-! ### Names and types -/

/-- Small letters, digits and `_`, no digit first. -/
def IsName : Text → Prop
  | [] => False
  | c :: rest =>
    (c.isLower = true ∨ c = '_') ∧ ∀ d ∈ rest, d.isLower = true ∨ d.isDigit = true ∨ d = '_'

instance : (name : Text) → Decidable (IsName name)
  | [] => inferInstanceAs (Decidable False)
  | _ :: _ => inferInstanceAs (Decidable (_ ∧ _))

/-- ASCII letters, digits and `_`, a letter first. -/
def IsTypeName : Text → Prop
  | [] => False
  | c :: rest => c.isAlpha = true ∧ ∀ d ∈ rest, isTypeChar d = true

instance : (name : Text) → Decidable (IsTypeName name)
  | [] => inferInstanceAs (Decidable False)
  | _ :: _ => inferInstanceAs (Decidable (_ ∧ _))

/-- The name of a type, with brackets behind it if it is an array's. -/
def IsType (type : Text) : Prop :=
  IsTypeName type ∨ ∃ name, IsTypeName name ∧ type = name ++ "[]".toList

variable {name type rest : Text}

theorem IsName.ne_nil (h : IsName name) : name ≠ [] := by
  rintro rfl
  exact h

theorem IsName.isNameChar (h : IsName name) : ∀ c ∈ name, isNameChar c = true := by
  cases name with
  | nil => exact List.forall_mem_nil _
  | cons c rest =>
    rw [List.forall_mem_cons]
    refine ⟨?_, fun d hd => ?_⟩
    · obtain hlower | rfl := h.1
      · simp [Declaration.isNameChar, hlower]
      · rfl
    · obtain hlower | hdigit | rfl := h.2 d hd
      · simp [Declaration.isNameChar, hlower]
      · simp [Declaration.isNameChar, hdigit]
      · rfl

theorem isDigit_of_isLower {c : Char} (h : c.isLower = true) : c.isDigit = false := by
  have hlower : 97 ≤ c.val.toNat := by
    rw [Char.isLower, Bool.and_eq_true, decide_eq_true_iff] at h
    exact UInt32.le_iff_toNat_le.mp h.1
  rw [Char.isDigit, Bool.and_eq_false_iff, decide_eq_false_iff_not, decide_eq_false_iff_not]
  refine .inr fun hle => ?_
  have hdigit : c.val.toNat ≤ 57 := UInt32.le_iff_toNat_le.mp hle
  omega

theorem IsName.isDigit_head? (h : IsName name) : ∀ c ∈ name.head?, c.isDigit = false := by
  cases name with
  | nil => exact fun c hc => nomatch hc
  | cons c rest =>
    intro d hd
    obtain rfl : c = d := Option.some.inj hd
    obtain hlower | rfl := h.1
    · exact isDigit_of_isLower hlower
    · rfl

theorem name?_append (h : IsName name)
    (hrest : ∀ c ∈ rest.head?, Declaration.isNameChar c = false) :
    name? (name ++ rest) = some (name, rest) := by
  rw [name?, span1?_append h.ne_nil h.isNameChar hrest]
  cases name with
  | nil => exact absurd rfl h.ne_nil
  | cons c name => simp [h.isDigit_head? c rfl]

theorem isTypeChar_of_isAlpha {c : Char} (h : c.isAlpha = true) : isTypeChar c = true := by
  simp [isTypeChar, isAsciiAlphanum, Char.isAlphanum, h]

theorem isTypeChar_of_isNameChar {c : Char} (h : Declaration.isNameChar c = true) :
    isTypeChar c = true := by
  simp only [Declaration.isNameChar, Bool.or_eq_true] at h
  obtain (hlower | hdigit) | hline := h
  · simp [isTypeChar, isAsciiAlphanum, Char.isAlphanum, Char.isAlpha, hlower]
  · simp [isTypeChar, isAsciiAlphanum, Char.isAlphanum, hdigit]
  · simp [isTypeChar, hline]

theorem IsTypeName.ne_nil (h : IsTypeName type) : type ≠ [] := by
  rintro rfl
  exact h

theorem IsTypeName.isTypeChar (h : IsTypeName type) : ∀ c ∈ type, isTypeChar c = true := by
  cases type with
  | nil => exact List.forall_mem_nil _
  | cons c rest => exact List.forall_mem_cons.mpr ⟨isTypeChar_of_isAlpha h.1, h.2⟩

theorem type?_append (h : IsTypeName name) (hrest : ∀ c ∈ rest.head?, isTypeChar c = false) :
    type? (name ++ rest) =
      match stripPrefix? "[]".toList rest with
      | some rest => some (name ++ "[]".toList, rest)
      | none => some (name, rest) := by
  rw [type?, span1?_append h.ne_nil h.isTypeChar hrest]
  cases name with
  | nil => exact absurd rfl h.ne_nil
  | cons c name => exact if_pos h.1

theorem type?_of_isType (h : IsType type) : type? type = some (type, []) := by
  obtain h | ⟨name, h, rfl⟩ := h
  · have hnil : ∀ c ∈ ([] : Text).head?, Declaration.isTypeChar c = false := fun c hc => nomatch hc
    have hread := type?_append h hnil
    rwa [List.append_nil] at hread
  · exact type?_append h (by decide)

/-! ### Declarations in code spans -/

theorem isWhite_of_isTypeChar {c : Char} (h : Declaration.isTypeChar c = true) :
    isWhite c = false := by
  apply Label.isWhite_of_isIdChar
  rw [Declaration.isTypeChar, Bool.or_eq_true] at h
  obtain halphanum | hline := h
  · exact Label.isIdChar_of_isAsciiAlphanum halphanum
  · simp [Label.isIdChar, hline]

theorem IsName.isWord (h : IsName name) : IsWord name :=
  ⟨h.ne_nil, fun c hc => isWhite_of_isTypeChar (isTypeChar_of_isNameChar (h.isNameChar c hc))⟩

/-- A type is made of its name's characters and perhaps of brackets. -/
theorem IsType.forall_mem {p : Char → Prop} (h : IsType type)
    (hchar : ∀ c, Declaration.isTypeChar c = true → p c) (hbrackets : ∀ c ∈ "[]".toList, p c) :
    ∀ c ∈ type, p c := by
  obtain h | ⟨name, h, rfl⟩ := h
  · exact fun c hc => hchar c (h.isTypeChar c hc)
  · rw [List.forall_mem_append]
    exact ⟨fun c hc => hchar c (h.isTypeChar c hc), hbrackets⟩

theorem IsType.ne_nil (h : IsType type) : type ≠ [] := by
  obtain h | ⟨name, h, rfl⟩ := h
  · exact h.ne_nil
  · simp

theorem IsType.isWord (h : IsType type) : IsWord type :=
  ⟨h.ne_nil, h.forall_mem (fun _ hc => isWhite_of_isTypeChar hc) (by decide)⟩

theorem parse?_append (hname : IsName name) (htype : IsType type) :
    parse? (name ++ ':' :: ' ' :: type) = some (⟨name, type, none⟩, []) := by
  have hcolon : ∀ c ∈ (':' :: ' ' :: type).head?, Declaration.isNameChar c = false := by
    intro c hc
    obtain rfl : ':' = c := Option.some.inj hc
    rfl
  have hskip : skipSpaces (' ' :: type) = type :=
    skipSpaces_of_head? fun c hc => isSpace_eq_false (htype.isWord.2 c (List.mem_of_mem_head? hc))
  have hstrip : stripPrefix? [':'] (':' :: ' ' :: type) = some (' ' :: type) := rfl
  rw [parse?, name?_append hname hcolon]
  simp only [Option.bind_eq_bind, Option.bind_some, hstrip, hskip, type?_of_isType htype]
  rfl

theorem inSpan?_append (hname : IsName name) (htype : IsType type) :
    inSpan? (name ++ ':' :: ' ' :: type) = some ⟨name, type, none⟩ := by
  have htrim : trim (name ++ ':' :: ' ' :: type) = name ++ ':' :: ' ' :: type :=
    trim_between (List.forall_mem_nil _) hname.isWord ": ".toList htype.isWord
  rw [inSpan?, htrim, parse?_append hname htype]

/-! ### Declarations that are read -/

/-- Name and type are as they are written in a declaration. -/
def WellFormed (declaration : Declaration) : Prop :=
  IsName declaration.name ∧ IsType declaration.type

theorem isName_of_name? {text : Text} (h : name? text = some (name, rest)) : IsName name := by
  rw [name?] at h
  split at h
  · rename_i c letters after hspan
    have hchars := (of_span1?_eq_some hspan).2.1
    rw [List.forall_mem_cons] at hchars
    split at h
    · contradiction
    · rename_i hdigit
      obtain ⟨rfl, -⟩ := Prod.mk.inj (Option.some.inj h)
      simp only [Declaration.isNameChar, Bool.or_eq_true, beq_iff_eq, or_assoc] at hchars
      exact ⟨hchars.1.imp_right fun hother => hother.resolve_left hdigit, hchars.2⟩
  · contradiction

theorem isType_of_type? {text : Text} (h : type? text = some (type, rest)) : IsType type := by
  rw [type?] at h
  split at h
  · rename_i c letters after hspan
    have hchars := (of_span1?_eq_some hspan).2.1
    rw [List.forall_mem_cons] at hchars
    split at h
    · rename_i halpha
      have hname : IsTypeName (c :: letters) := ⟨halpha, hchars.2⟩
      split at h
      · obtain ⟨rfl, -⟩ := Prod.mk.inj (Option.some.inj h)
        exact .inr ⟨c :: letters, hname, rfl⟩
      · obtain ⟨rfl, -⟩ := Prod.mk.inj (Option.some.inj h)
        exact .inl hname
    · contradiction
  · contradiction

variable {declaration : Declaration} {text : Text}

theorem wellFormed_of_parse? (h : parse? text = some (declaration, rest)) :
    declaration.WellFormed := by
  obtain ⟨⟨name, afterName⟩, hname, h⟩ := Option.bind_eq_some_iff.mp h
  obtain ⟨afterColon, -, h⟩ := Option.bind_eq_some_iff.mp h
  obtain ⟨⟨type, afterType⟩, htype, h⟩ := Option.bind_eq_some_iff.mp h
  have hparts : IsName name ∧ IsType type := ⟨isName_of_name? hname, isType_of_type? htype⟩
  dsimp only at h
  split at h
  · obtain ⟨rfl, -⟩ := Prod.mk.inj (Option.some.inj h)
    exact hparts
  · obtain ⟨rfl, -⟩ := Prod.mk.inj (Option.some.inj h)
    exact hparts

theorem parse?_of_known? (h : known? text = some (declaration, rest)) :
    parse? text = some (declaration, rest) := by
  rw [known?] at h
  split at h
  · rename_i hparse
    split at h
    · rw [hparse, h]
    · contradiction
  · contradiction

theorem wellFormed_of_known? (h : known? text = some (declaration, rest)) :
    declaration.WellFormed :=
  wellFormed_of_parse? (parse?_of_known? h)

theorem wellFormed_of_inSpan? (h : inSpan? text = some declaration) :
    declaration.WellFormed := by
  rw [inSpan?] at h
  split at h
  · rename_i hparse
    obtain rfl := Option.some.inj h
    exact wellFormed_of_parse? hparse
  · contradiction

theorem wellFormed_of_mem_scanProse {wordStart : Bool} {skip : Nat} :
    ∀ declaration ∈ scanProse wordStart skip text, declaration.WellFormed := by
  induction text generalizing wordStart skip with
  | nil => exact List.forall_mem_nil _
  | cons c rest ih =>
    cases skip with
    | succ skip => exact ih
    | zero =>
      rw [scanProse]
      split
      · rename_i hknown
        rw [List.forall_mem_cons]
        split at hknown
        · exact ⟨wellFormed_of_known? hknown, ih⟩
        · contradiction
      · exact ih

theorem wellFormed_of_mem_inParts {inside : Bool} {parts : List Text} :
    ∀ declaration ∈ inParts inside parts, declaration.WellFormed := by
  induction parts generalizing inside with
  | nil => exact List.forall_mem_nil _
  | cons part rest ih =>
    cases rest with
    | nil => exact wellFormed_of_mem_scanProse
    | cons next others =>
      rw [inParts, List.forall_mem_append]
      refine ⟨?_, ih⟩
      cases inside with
      | false => exact wellFormed_of_mem_scanProse
      | true =>
        intro declaration hdeclaration
        exact wellFormed_of_inSpan? (Option.mem_toList.mp hdeclaration)
      · exact List.cons_ne_nil next others

theorem wellFormed_of_mem_all {body : Text} :
    ∀ declaration ∈ all body, declaration.WellFormed :=
  wellFormed_of_mem_inParts

/-! ### Declarations in prose -/

theorem name?_eq_some_append {text : Text} (h : name? text = some (name, rest)) :
    text = name ++ rest := by
  rw [name?] at h
  split at h
  · rename_i hspan
    split at h
    · contradiction
    · obtain ⟨rfl, rfl⟩ := Prod.mk.inj (Option.some.inj h)
      exact (span1?_eq_some_iff.mp hspan).1
  · contradiction

theorem parse?_eq_none {text : Text} (h : ':' ∉ text) : parse? text = none := by
  rw [parse?]
  cases hname : name? text with
  | none => rfl
  | some found =>
    obtain ⟨name, rest⟩ := found
    have hstrip : stripPrefix? [':'] rest = none := by
      rw [stripPrefix?_eq_none_iff]
      intro hbegins
      rw [name?_eq_some_append hname] at h
      exact h (List.mem_append_right _ (hbegins.subset List.mem_cons_self))
    simp [hstrip]

theorem scanProse_eq_nil {text : Text} (h : ':' ∉ text) (wordStart : Bool) (skip : Nat) :
    scanProse wordStart skip text = [] := by
  induction text generalizing wordStart skip with
  | nil => rfl
  | cons c rest ih =>
    have hrest : ':' ∉ rest := fun hmem => h (List.mem_cons_of_mem c hmem)
    have hknown : known? (c :: rest) = none := by
      rw [known?, parse?_eq_none h]
    cases skip with
    | succ skip => exact ih hrest _ skip
    | zero =>
      rw [scanProse, hknown, ite_self]
      exact ih hrest _ 0

theorem inProse_eq_nil {text : Text} (h : ':' ∉ text) : inProse text = [] :=
  scanProse_eq_nil h true 0

theorem splitOnP_of_not_mem {prose : Text} (h : '\x60' ∉ prose) :
    prose.splitOnP (· == '\x60') = [prose] := by
  refine List.splitOnP_eq_singleton fun c hc => ?_
  rw [beq_eq_false_iff_ne]
  rintro rfl
  exact h hc

theorem all_append {prose span : Text} (hprose : '\x60' ∉ prose) (hspan : '\x60' ∉ span)
    (more : Text) :
    all (prose ++ '\x60' :: (span ++ '\x60' :: more)) =
      inProse prose ++ ((inSpan? span).toList ++ all more) := by
  have hsplit : ∀ before after : Text, (before ++ '\x60' :: after).splitOnP (· == '\x60') =
      before.splitOnP (· == '\x60') ++ after.splitOnP (· == '\x60') :=
    fun before after => List.splitOnP_append_cons before after (by rfl)
  obtain ⟨part, parts, hparts⟩ :=
    List.exists_cons_of_ne_nil (List.splitOnP_ne_nil (· == '\x60') more)
  rw [all, hsplit, hsplit, splitOnP_of_not_mem hprose, splitOnP_of_not_mem hspan, all, hparts]
  rfl

theorem all_of_not_mem {prose : Text} (h : '\x60' ∉ prose) : all prose = inProse prose := by
  rw [all, splitOnP_of_not_mem h]
  rfl

end Declaration

/-! ### Attributes -/

namespace Entity

theorem namesPrimaryKey_of_mark {declaration : Declaration} (h : declaration.mark = none) :
    namesPrimaryKey declaration = (declaration.name == "id".toList) := by
  simp [namesPrimaryKey, h]

theorem namesForeignKey_of_mark {declaration : Declaration} (h : declaration.mark = none) :
    namesForeignKey declaration = endsWith "_id".toList declaration.name := by
  rw [namesForeignKey, namesPrimaryKey_of_mark h, h]
  by_cases hid : declaration.name = "id".toList
  · rw [hid]
    rfl
  · rw [beq_eq_false_iff_ne.mpr hid]
    rfl

theorem declare_of_fresh {declarations : List Declaration} (entry : EntityEntry)
    {names : List Text} {hasPrimaryKey : Bool}
    (hmark : ∀ declaration ∈ declarations, declaration.mark = none)
    (hnodup : (declarations.map Declaration.name).Nodup)
    (hfresh : ∀ declaration ∈ declarations, declaration.name ∉ names)
    (hkey : hasPrimaryKey = true → "id".toList ∈ names) :
    declare entry names hasPrimaryKey declarations = ⟨declarations.map fun declaration =>
      attributeOf declaration (declaration.name == "id".toList), []⟩ := by
  induction declarations generalizing names hasPrimaryKey with
  | nil => rfl
  | cons declaration rest ih =>
    rw [List.forall_mem_cons] at hmark hfresh
    rw [List.map_cons, List.nodup_cons] at hnodup
    have hnext : ∀ later ∈ rest, later.name ∉ names ++ [declaration.name] := by
      intro later hlater hmem
      obtain hmem | hmem := List.mem_append.mp hmem
      · exact hfresh.2 later hlater hmem
      · exact hnodup.1 (List.mem_singleton.mp hmem ▸ List.mem_map_of_mem hlater)
    have hid : namesPrimaryKey declaration = true → declaration.name = "id".toList := by
      rw [namesPrimaryKey_of_mark hmark.1]
      exact beq_iff_eq.mp
    have hsingle : ¬ (namesPrimaryKey declaration && hasPrimaryKey) = true := by
      intro hboth
      obtain ⟨hprimary, hhas⟩ := Bool.and_eq_true_iff.mp hboth
      exact hfresh.1 (hid hprimary ▸ hkey hhas)
    have hkey' : (hasPrimaryKey || namesPrimaryKey declaration) = true →
        "id".toList ∈ names ++ [declaration.name] := by
      intro heither
      obtain hhas | hprimary := Bool.or_eq_true_iff.mp heither
      · exact List.mem_append_left _ (hkey hhas)
      · simp [hid hprimary]
    rw [declare, if_neg (by simpa using hfresh.1), if_neg hsingle,
      ih hmark.2 hnodup.2 hnext hkey', namesPrimaryKey_of_mark hmark.1]
    rfl

theorem declare_of_nodup {declarations : List Declaration} (entry : EntityEntry)
    (hmark : ∀ declaration ∈ declarations, declaration.mark = none)
    (hnodup : (declarations.map Declaration.name).Nodup) :
    declare entry [] false declarations = ⟨declarations.map fun declaration =>
      attributeOf declaration (declaration.name == "id".toList), []⟩ :=
  declare_of_fresh entry hmark hnodup (fun _ _ => List.not_mem_nil) (fun h => nomatch h)

end Entity

end DiagramSync
