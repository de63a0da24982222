import DiagramSync.Proofs.Entity.Declaration
import DiagramSync.Proofs.Entity.Relationship

/-!
Reading entities adds up. Each bullet of the section becomes an entity or is warned of, and so is
each declaration in an entity's text: of those with one name the first becomes an attribute. Of the
attributes that are meant to be a primary key the first one is, and the others are warned of.
-/

namespace DiagramSync

open Text

/-! ### Declarations that count -/

namespace Declaration

/-- The declarations that count: of each name the first. -/
def firsts (declarations : List Declaration) : List Declaration :=
  declarations.eraseDupsBy fun later first => later.name == first.name

@[simp] theorem firsts_nil : firsts [] = [] := rfl

theorem firsts_cons (declaration : Declaration) (rest : List Declaration) :
    firsts (declaration :: rest) =
      declaration :: firsts (rest.filter fun later => later.name ≠ declaration.name) := by
  rw [firsts, List.eraseDupsBy_cons, firsts]
  simp [beq_eq_decide]

theorem firsts_sublist (declarations : List Declaration) :
    (firsts declarations).Sublist declarations := by
  cases declarations with
  | nil => exact List.Sublist.slnil
  | cons declaration rest =>
    rw [firsts_cons]
    exact ((firsts_sublist _).trans List.filter_sublist).cons_cons declaration
termination_by declarations.length
decreasing_by exact Nat.lt_succ_of_le (List.length_filter_le _ _)

theorem nodup_names_firsts (declarations : List Declaration) :
    ((firsts declarations).map name).Nodup := by
  cases declarations with
  | nil => exact List.nodup_nil
  | cons declaration rest =>
    rw [firsts_cons, List.map_cons, List.nodup_cons]
    refine ⟨fun hmem => ?_, nodup_names_firsts _⟩
    obtain ⟨later, hlater, hname⟩ := List.mem_map.mp hmem
    have hne := List.of_mem_filter ((firsts_sublist _).subset hlater)
    simp [hname] at hne
termination_by declarations.length
decreasing_by exact Nat.lt_succ_of_le (List.length_filter_le _ _)

/-- The declarations of names that are none of the given ones. -/
def unseen (names : List Text) (declarations : List Declaration) : List Declaration :=
  declarations.filter fun declaration => declaration.name ∉ names

theorem unseen_nil (declarations : List Declaration) : unseen [] declarations = declarations := by
  simp [unseen]

variable {names : List Text} {declaration : Declaration}

theorem unseen_cons_of_mem (h : declaration.name ∈ names) (rest : List Declaration) :
    unseen names (declaration :: rest) = unseen names rest :=
  List.filter_cons_of_neg (by simpa using h)

theorem firsts_unseen_cons (h : declaration.name ∉ names) (rest : List Declaration) :
    firsts (unseen names (declaration :: rest)) =
      declaration :: firsts (unseen (names ++ [declaration.name]) rest) := by
  rw [unseen, List.filter_cons_of_pos (by simpa using h), firsts_cons, List.filter_filter, unseen]
  simp [not_or, and_comm]

end Declaration

namespace Entity

/-! ### Attributes -/

variable {entry : EntityEntry} {names : List Text} {declaration : Declaration}

theorem declare_cons_of_mem (h : declaration.name ∈ names) (hasPrimaryKey : Bool)
    (rest : List Declaration) :
    declare entry names hasPrimaryKey (declaration :: rest) =
      (declare entry names hasPrimaryKey rest).warn
        (duplicateAttribute entry (String.ofList declaration.name)) := by
  rw [declare, if_pos (by simpa using h)]

theorem declare_cons_of_not_mem (h : declaration.name ∉ names) (hasPrimaryKey : Bool)
    (rest : List Declaration) :
    let others := names ++ [declaration.name]
    declare entry names hasPrimaryKey (declaration :: rest) =
      if namesPrimaryKey declaration && hasPrimaryKey then
        ((declare entry others hasPrimaryKey rest).cons (attributeOf declaration false)).warn
          (multiplePrimaryKeys entry (String.ofList declaration.name))
      else
        (declare entry others (hasPrimaryKey || namesPrimaryKey declaration) rest).cons
          (attributeOf declaration (namesPrimaryKey declaration)) := by
  intro others
  rw [declare, if_neg (by simpa using h)]

theorem length_declare (entry : EntityEntry) (names : List Text) (hasPrimaryKey : Bool)
    (declarations : List Declaration) :
    declarations.length = (declare entry names hasPrimaryKey declarations).records.length +
      ((declare entry names hasPrimaryKey declarations).withCode .duplicateAttribute).length := by
  induction declarations generalizing names hasPrimaryKey with
  | nil => rfl
  | cons declaration rest ih =>
    by_cases hseen : declaration.name ∈ names
    · rw [declare_cons_of_mem hseen, List.length_cons, ih names hasPrimaryKey]
      simp [duplicateAttribute, warning]
      omega
    · rw [declare_cons_of_not_mem hseen, List.length_cons]
      split
      · rw [ih (names ++ [declaration.name]) hasPrimaryKey]
        simp [multiplePrimaryKeys, warning]
        omega
      · rw [ih (names ++ [declaration.name]) (hasPrimaryKey || namesPrimaryKey declaration)]
        simp
        omega

theorem records_declare_of_key (entry : EntityEntry) (names : List Text)
    (declarations : List Declaration) :
    (declare entry names true declarations).records =
      (Declaration.firsts (Declaration.unseen names declarations)).map fun declaration =>
        attributeOf declaration false := by
  induction declarations generalizing names with
  | nil => rfl
  | cons declaration rest ih =>
    by_cases hseen : declaration.name ∈ names
    · rw [declare_cons_of_mem hseen, Declaration.unseen_cons_of_mem hseen]
      exact ih names
    · rw [declare_cons_of_not_mem hseen, Declaration.firsts_unseen_cons hseen, List.map_cons,
        ← ih (names ++ [declaration.name])]
      cases hkey : namesPrimaryKey declaration <;> rfl

/-- The first of the declarations that name a primary key. -/
def keyDeclaration? (declarations : List Declaration) : Option Declaration :=
  declarations.find? namesPrimaryKey

/-- The declarations that name a primary key behind the first such one. -/
def furtherKeys (declarations : List Declaration) : List Declaration :=
  (declarations.filter namesPrimaryKey).tail

/-- The induction is on the declarations, up to the one of the primary key. -/
theorem records_declare (entry : EntityEntry) (names : List Text)
    (declarations : List Declaration) :
    let counted := Declaration.firsts (Declaration.unseen names declarations)
    (declare entry names false declarations).records = counted.map fun declaration =>
      attributeOf declaration (keyDeclaration? counted = some declaration) := by
  induction declarations generalizing names with
  | nil => rfl
  | cons declaration rest ih =>
    by_cases hseen : declaration.name ∈ names
    · rw [declare_cons_of_mem hseen, Declaration.unseen_cons_of_mem hseen]
      exact ih names
    · have hnodup := Declaration.nodup_names_firsts (Declaration.unseen names (declaration :: rest))
      rw [declare_cons_of_not_mem hseen, Bool.and_false, Bool.false_or]
      rw [Declaration.firsts_unseen_cons hseen] at hnodup ⊢
      rw [List.map_cons, List.nodup_cons] at hnodup
      generalize names ++ [declaration.name] = others at *
      cases hkey : namesPrimaryKey declaration with
      | true =>
        have hfirst : ∀ later ∈ Declaration.firsts (Declaration.unseen others rest),
            declaration ≠ later := by
          rintro later hlater rfl
          exact hnodup.1 (List.mem_map_of_mem hlater)
        simp only [keyDeclaration?, List.find?_cons, hkey, Bool.false_eq_true, if_false,
          Findings.records_cons, records_declare_of_key, List.map_cons, Option.some.injEq,
          decide_true]
        refine congrArg _ (List.map_congr_left fun later hlater => ?_)
        rw [decide_eq_false (hfirst later hlater)]
      | false =>
        have hnot : keyDeclaration? (Declaration.firsts (Declaration.unseen others rest)) ≠
            some declaration := by
          intro hfound
          have hnames := List.find?_some hfound
          rw [hkey] at hnames
          contradiction
        have hskip : keyDeclaration? (declaration ::
            Declaration.firsts (Declaration.unseen others rest)) =
              keyDeclaration? (Declaration.firsts (Declaration.unseen others rest)) := by
          simp [keyDeclaration?, hkey]
        simp only [hskip, Bool.false_eq_true, if_false, Findings.records_cons, ih others,
          List.map_cons, decide_eq_false hnot]

theorem withCode_multiplePrimaryKeys_declare (entry : EntityEntry) (names : List Text)
    (hasPrimaryKey : Bool) (declarations : List Declaration) :
    let keys := (Declaration.firsts (Declaration.unseen names declarations)).filter namesPrimaryKey
    (declare entry names hasPrimaryKey declarations).withCode .multiplePrimaryKeys =
      (if hasPrimaryKey then keys else keys.tail).map fun declaration =>
        multiplePrimaryKeys entry (String.ofList declaration.name) := by
  induction declarations generalizing names hasPrimaryKey with
  | nil => cases hasPrimaryKey <;> rfl
  | cons declaration rest ih =>
    by_cases hseen : declaration.name ∈ names
    · rw [declare_cons_of_mem hseen, Declaration.unseen_cons_of_mem hseen, Findings.withCode_warn,
        if_neg (by simp [duplicateAttribute, warning])]
      exact ih names hasPrimaryKey
    · rw [declare_cons_of_not_mem hseen, Declaration.firsts_unseen_cons hseen]
      cases hkey : namesPrimaryKey declaration <;> cases hasPrimaryKey <;>
        simp [hkey, ih, multiplePrimaryKeys, warning]

/-! ### Keys -/

variable {declarations : List Declaration}

theorem keyDeclaration?_eq_head? (declarations : List Declaration) :
    keyDeclaration? declarations = (declarations.filter namesPrimaryKey).head? :=
  (List.head?_filter ..).symm

theorem countP_isPrimaryKey_le_one (h : declarations.Nodup) :
    (declarations.map fun declaration => attributeOf declaration
      (keyDeclaration? declarations = some declaration)).countP Attribute.isPrimaryKey ≤ 1 := by
  rw [List.countP_map]
  cases hkey : keyDeclaration? declarations with
  | none =>
    rw [List.countP_eq_zero.mpr]
    · exact Nat.zero_le 1
    · simp [attributeOf]
  | some key =>
    calc declarations.countP _ = declarations.count key := by
          rw [List.count_eq_countP]
          refine List.countP_congr fun declaration _ => ?_
          simp only [Function.comp_apply, attributeOf, Option.some.injEq, decide_eq_true_eq,
            beq_iff_eq]
          exact eq_comm
      _ ≤ 1 := List.nodup_iff_count_le_one.mp h key

theorem keyDeclaration?_ne_of_mem_furtherKeys (hnodup : declarations.Nodup)
    {declaration : Declaration} (h : declaration ∈ furtherKeys declarations) :
    keyDeclaration? declarations ≠ some declaration := by
  have hkeys := hnodup.filter namesPrimaryKey
  rw [keyDeclaration?_eq_head?]
  rw [furtherKeys] at h
  cases hfilter : declarations.filter namesPrimaryKey with
  | nil => simp [hfilter] at h
  | cons key others =>
    rw [hfilter] at h hkeys
    rintro hhead
    obtain rfl := Option.some.inj hhead
    exact (List.nodup_cons.mp hkeys).1 h

theorem mem_of_mem_furtherKeys {declaration : Declaration}
    (h : declaration ∈ furtherKeys declarations) : declaration ∈ declarations :=
  List.mem_of_mem_filter (List.mem_of_mem_tail h)

/-! ### Entities -/

/-- What the declarations in an entry's text come to. -/
structure Declares (entry : EntityEntry) (entity : Entity) : Prop where
  name_eq : entity.name = entry.name
  attributes_eq : entity.attributes =
    (Declaration.firsts (Declaration.all entry.body)).map fun declaration => attributeOf declaration
      (keyDeclaration? (Declaration.firsts (Declaration.all entry.body)) = some declaration)
  nodup_names : (entity.attributes.map Attribute.name).Nodup
  isName : ∀ attr ∈ entity.attributes, Declaration.IsName attr.name.toList
  isType : ∀ attr ∈ entity.attributes, Declaration.IsType attr.type.toList
  key_le_one : entity.attributes.countP Attribute.isPrimaryKey ≤ 1
  /-- Further keys stay attributes. -/
  demoted : ∀ declaration ∈ furtherKeys (Declaration.firsts (Declaration.all entry.body)),
    attributeOf declaration false ∈ entity.attributes

theorem records_declaredIn (entry : EntityEntry) :
    let counted := Declaration.firsts (Declaration.all entry.body)
    (declaredIn entry).records = counted.map fun declaration =>
      attributeOf declaration (keyDeclaration? counted = some declaration) := by
  have hdeclare := records_declare entry [] (Declaration.all entry.body)
  rwa [Declaration.unseen_nil] at hdeclare

theorem declares_of_attributes_eq {entry : EntityEntry} {entity : Entity}
    (hname : entity.name = entry.name)
    (hattributes : entity.attributes = (declaredIn entry).records) : Declares entry entity := by
  rw [records_declaredIn] at hattributes
  have hsublist := Declaration.firsts_sublist (Declaration.all entry.body)
  have hnames := Declaration.nodup_names_firsts (Declaration.all entry.body)
  have hnodup := hnames.of_map
  have hwell : ∀ declaration ∈ Declaration.firsts (Declaration.all entry.body),
      declaration.WellFormed := fun declaration hmem =>
    Declaration.wellFormed_of_mem_all declaration (hsublist.subset hmem)
  constructor
  case name_eq => exact hname
  case attributes_eq => exact hattributes
  case nodup_names =>
    have hmap : entity.attributes.map Attribute.name =
        ((Declaration.firsts (Declaration.all entry.body)).map Declaration.name).map
          String.ofList := by
      rw [hattributes, List.map_map, List.map_map]
      rfl
    rw [hmap]
    exact hnames.map fun _ _ => String.ofList_inj.mp
  case isName =>
    rw [hattributes, List.forall_mem_map]
    intro declaration hmem
    rw [attributeOf, String.toList_ofList]
    exact (hwell declaration hmem).1
  case isType =>
    rw [hattributes, List.forall_mem_map]
    intro declaration hmem
    rw [attributeOf, String.toList_ofList]
    exact (hwell declaration hmem).2
  case key_le_one =>
    rw [hattributes]
    exact countP_isPrimaryKey_le_one hnodup
  case demoted =>
    intro declaration hmem
    rw [hattributes, List.mem_map]
    refine ⟨declaration, mem_of_mem_furtherKeys hmem, ?_⟩
    rw [decide_eq_false (keyDeclaration?_ne_of_mem_furtherKeys hnodup hmem)]

theorem withCode_multiplePrimaryKeys_declaredIn (entry : EntityEntry) :
    (declaredIn entry).withCode .multiplePrimaryKeys =
      (furtherKeys (Declaration.firsts (Declaration.all entry.body))).map fun declaration =>
        multiplePrimaryKeys entry (String.ofList declaration.name) := by
  have hdeclare := withCode_multiplePrimaryKeys_declare entry [] false (Declaration.all entry.body)
  rwa [Declaration.unseen_nil] at hdeclare

/-! ### Warnings by their origin -/

theorem withCode_statedIn_eq_nil {code : Code}
    (hcode : code ≠ .unresolvedTarget ∧ code ≠ .conflictingCardinalities) (entry : EntityEntry)
    (names : List String) : (statedIn entry (bySize names)).withCode code = [] := by
  rw [Findings.withCode_eq_nil_iff, statedIn_eq]
  intro diagnostic hmem
  obtain h | h := code_of_mem_ofMentions hmem <;> simp [h, hcode.1.symm, hcode.2.symm]

theorem withCode_declaredIn_eq_nil {code : Code}
    (hcode : code ≠ .duplicateAttribute ∧ code ≠ .multiplePrimaryKeys) (entry : EntityEntry) :
    (declaredIn entry).withCode code = [] := by
  rw [Findings.withCode_eq_nil_iff]
  intro diagnostic hmem
  obtain h | h := code_of_mem_declare hmem <;> simp [h, hcode.1.symm, hcode.2.symm]

/-- Warnings about bullets come from the section's lines alone. -/
theorem withCode_ofSection_of_entry {code : Code}
    (hcode : code = .unnamedEntity ∨ code = .duplicateEntity) (lines : List Line) :
    (ofSection lines).withCode code = (EntityEntry.ofSection lines).withCode code := by
  have hother : (code ≠ .duplicateAttribute ∧ code ≠ .multiplePrimaryKeys) ∧
      code ≠ .unresolvedTarget ∧ code ≠ .conflictingCardinalities := by
    obtain rfl | rfl := hcode <;> decide
  rw [withCode_ofSection]
  simp [withCode_declaredIn_eq_nil hother.1, withCode_statedIn_eq_nil hother.2]

/-- Warnings about attributes come from the declarations in the entries' texts alone. -/
theorem withCode_ofSection_of_declared {code : Code}
    (hcode : code = .duplicateAttribute ∨ code = .multiplePrimaryKeys) (lines : List Line) :
    (ofSection lines).withCode code =
      (EntityEntry.ofSection lines).records.flatMap fun entry =>
        (declaredIn entry).withCode code := by
  have hother : code ≠ .unresolvedTarget ∧ code ≠ .conflictingCardinalities := by
    obtain rfl | rfl := hcode <;> decide
  have hentries : (EntityEntry.ofSection lines).withCode code = [] := by
    rw [Findings.withCode_eq_nil_iff]
    intro diagnostic hmem
    obtain h | h := EntityEntry.code_of_mem_collect hmem <;> obtain rfl | rfl := hcode <;> simp [h]
  rw [withCode_ofSection, hentries]
  simp [withCode_statedIn_eq_nil hother]

/-! ### Documents -/

theorem getD_ofDocument? (document : Text) :
    (ofDocument? document).getD .empty =
      ofSection ((EntityEntry.section? (Line.scan document)).getD []) := by
  rw [ofDocument?]
  cases EntityEntry.section? (Line.scan document) <;> rfl

/-- Entities of a document have names, no two the same one, and attributes with names of their own,
one primary key among them at most. Each bullet of the section and each declaration in an entity's
text is found again, as a record or in a warning, and each further primary key is warned of once
and stays a plain attribute. -/
theorem ofDocument?_accounts (document : Text) :
    let lines := (EntityEntry.section? (Line.scan document)).getD []
    let entries := (EntityEntry.ofSection lines).records
    let found := (ofDocument? document).getD .empty
    (∀ entity ∈ found.records, entity.name ≠ "") ∧
      (found.records.map Entity.name).Nodup ∧
      (∀ entry ∈ entries, entry.StandsIn lines) ∧
      List.Forall₂ Declares entries found.records ∧
      (lines.countP fun line => !line.fenced && EntityEntry.isOuterBullet line.text) =
        found.records.length + (found.withCode .unnamedEntity).length +
          (found.withCode .duplicateEntity).length ∧
      (entries.map fun entry => (Declaration.all entry.body).length).sum =
        (found.records.map fun entity => entity.attributes.length).sum +
          (found.withCode .duplicateAttribute).length ∧
      found.withCode .multiplePrimaryKeys = entries.flatMap fun entry =>
        (furtherKeys (Declaration.firsts (Declaration.all entry.body))).map fun declaration =>
          multiplePrimaryKeys entry (String.ofList declaration.name) := by
  intro lines entries found
  have hfound : found = ofSection lines := getD_ofDocument? document
  have hrecords : found.records = entries.map fun entry => ⟨entry.name, entry.description,
      (declaredIn entry).records,
      (statedIn entry (bySize (entries.map EntityEntry.name))).records⟩ := by
    rw [hfound]
    exact records_ofSection lines
  have hnames : found.records.map Entity.name = entries.map EntityEntry.name := by
    rw [hrecords, List.map_map]
    rfl
  refine ⟨?_, ?_, ?_, ?_, ?_, ?_, ?_⟩
  · rw [hrecords, List.forall_mem_map]
    exact fun entry => EntityEntry.name_ne_empty_of_mem_ofSection
  · rw [hnames]
    exact EntityEntry.nodup_names_ofSection lines
  · exact fun entry => EntityEntry.standsIn_of_mem_ofSection
  · rw [hrecords, List.forall₂_map_right_iff, List.forall₂_same]
    exact fun entry _ => declares_of_attributes_eq rfl rfl
  · rw [hrecords, List.length_map, hfound, withCode_ofSection_of_entry (.inl rfl),
      withCode_ofSection_of_entry (.inr rfl)]
    exact (EntityEntry.accounted_ofSection lines).symm
  · rw [hrecords, hfound, withCode_ofSection_of_declared (.inl rfl), List.map_map,
      List.length_flatMap, ← List.sum_map_add]
    exact congrArg List.sum (List.map_congr_left fun entry _ => length_declare entry [] false _)
  · rw [hfound, withCode_ofSection_of_declared (.inr rfl)]
    exact List.flatMap_congr fun entry _ => withCode_multiplePrimaryKeys_declaredIn entry

/-- A name counts once, and its second key is no key. -/
example :
    let declared := Declaration.all "Has `id: uuid`, `code: string PK`, id: int PK.".toList
    declared.length = 3 ∧
      Declaration.firsts declared = [⟨"id".toList, "uuid".toList, none⟩,
        ⟨"code".toList, "string".toList, some .primary⟩] ∧
      furtherKeys (Declaration.firsts declared) =
        [⟨"code".toList, "string".toList, some .primary⟩] := by
  decide +kernel

end Entity

end DiagramSync
