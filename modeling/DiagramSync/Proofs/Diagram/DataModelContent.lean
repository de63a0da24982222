import DiagramSync.Proofs.Diagram.DataModelDrawing
import DiagramSync.Proofs.Diagram.Distinct
import DiagramSync.Proofs.Entity.Relationship

/-!
The markup of a data model draws its entities as they are recorded, and of their relationships
those that stay among them. The entities of a document have no others.
-/

namespace DiagramSync

open Text Markup

/-- The entity as its lines draw it. One without attributes has no braces. -/
def Entity.drawn (idOf : String → String) (entity : Entity) : DrawnEntity where
  id := idOf entity.name
  attributes :=
    if entity.attributes.isEmpty then none else some (entity.attributes.map Attribute.drawn)

/-- The relationship as its line draws it. -/
def Relationship.drawn (idOf : String → String) (relationship : Relationship) :
    DrawnRelationship where
  source := idOf relationship.source
  target := idOf relationship.target
  cardinality := relationship.cardinality
  label := Label.escape relationship.label

/-- Both ends of the relationship are among the names. -/
def Relationship.staysIn (names : List String) (relationship : Relationship) : Bool :=
  names.contains relationship.source && names.contains relationship.target

theorem Relationship.staysIn_iff {names : List String} {relationship : Relationship} :
    relationship.staysIn names = true ↔
      relationship.source ∈ names ∧ relationship.target ∈ names := by
  rw [staysIn, Bool.and_eq_true, List.contains_iff_mem, List.contains_iff_mem]

namespace DataModel

open DataModelCheck

/-! ### Identifiers by name -/

theorem idOf?_cons (name id : String) (ids : List (String × String)) (sought : String) :
    idOf? ((name, id) :: ids) sought =
      (idOf? ids sought).or (if sought = name then some id else none) := by
  rw [idOf?, List.reverse_cons, List.lookup_append]
  congr 1
  rw [List.lookup_cons, List.lookup_nil]
  by_cases h : sought = name
  · rw [h, beq_self_eq_true, if_pos rfl]
  · rw [beq_eq_false_iff_ne.mpr h, if_neg h]

theorem isSome_idOf? {names ids : List String} (hlength : names.length = ids.length)
    (name : String) : (idOf? (names.zip ids) name).isSome = true ↔ name ∈ names := by
  induction names generalizing ids with
  | nil => simp [idOf?]
  | cons first rest ih =>
    cases ids with
    | nil => contradiction
    | cons id others =>
      rw [List.zip_cons_cons, idOf?_cons, Option.isSome_or, Bool.or_eq_true,
        ih (Nat.succ.inj hlength), List.mem_cons, Or.comm]
      by_cases h : name = first <;> simp [h]

/-- Where no name occurs twice, each one leads to its own identifier. -/
theorem map_idOf? {names ids : List String} (hnodup : names.Nodup)
    (hlength : names.length = ids.length) :
    names.map (idOf? (names.zip ids)) = ids.map some := by
  induction names generalizing ids with
  | nil =>
    rw [List.eq_nil_of_length_eq_zero hlength.symm]
    rfl
  | cons first rest ih =>
    cases ids with
    | nil => contradiction
    | cons id others =>
      obtain ⟨hfirst, hrest⟩ := List.nodup_cons.mp hnodup
      have hlength' := Nat.succ.inj hlength
      have hnone : idOf? (rest.zip others) first = none := by
        rw [← Option.not_isSome_iff_eq_none, isSome_idOf? hlength']
        exact hfirst
      rw [List.map_cons, List.map_cons, List.zip_cons_cons, idOf?_cons, hnone, if_pos rfl,
        Option.none_or, ← ih hrest hlength']
      congr 1
      refine List.map_congr_left fun name hname => ?_
      obtain ⟨found, hfound⟩ := Option.isSome_iff_exists.mp ((isSome_idOf? hlength' name).mpr hname)
      rw [idOf?_cons, hfound, Option.some_or]

/-- The identifier that a name leads to, if the name is among the names. -/
def idOf (names : List String) (name : String) : String :=
  (idOf? (names.zip (Label.identifiers names)) name).getD ""

theorem map_idOf {names : List String} (hnodup : names.Nodup) :
    names.map (idOf names) = Label.identifiers names := by
  have hmap := congrArg (List.map fun id => Option.getD id "")
    (map_idOf? hnodup (Label.length_identifiers names).symm)
  rw [List.map_map, List.map_map] at hmap
  exact hmap.trans (List.map_id _)

theorem idOf?_of_mem {names : List String} {name : String} (h : name ∈ names) :
    idOf? (names.zip (Label.identifiers names)) name = some (idOf names name) := by
  rw [← isSome_idOf? (Label.length_identifiers names).symm, Option.isSome_iff_exists] at h
  obtain ⟨id, hid⟩ := h
  rw [idOf, hid, Option.getD_some]

theorem isId_idOf {names : List String} {name : String} (h : name ∈ names) :
    Label.IsId (idOf names name).toList :=
  Label.isId_of_mem_identifiers (mem_of_idOf? (idOf?_of_mem h))

/-! ### Lines -/

/-- The line of a relationship that stays among the names. -/
def lineOf (names : List String) (relationship : Relationship) : Text :=
  relationshipLine (idOf names relationship.source).toList (idOf names relationship.target).toList
    relationship.cardinality (Label.escape relationship.label).toList

theorem toList_relationshipLine? (names : List String) (relationship : Relationship) :
    (relationshipLine? (names.zip (Label.identifiers names)) relationship).map String.toList =
      if relationship.staysIn names then some (lineOf names relationship) else none := by
  have hnone : ∀ {name}, name ∉ names →
      idOf? (names.zip (Label.identifiers names)) name = none := by
    intro name hname
    rwa [← isSome_idOf? (Label.length_identifiers names).symm, Option.not_isSome_iff_eq_none]
      at hname
  rw [relationshipLine?]
  split
  · rename_i hstays
    obtain ⟨hsource, htarget⟩ := Relationship.staysIn_iff.mp hstays
    simp [idOf?_of_mem hsource, idOf?_of_mem htarget, lineOf, relationshipLine]
  · rename_i hleaves
    rw [Relationship.staysIn_iff] at hleaves
    by_cases hsource : relationship.source ∈ names
    · simp [hnone fun htarget => hleaves ⟨hsource, htarget⟩]
    · simp [hnone hsource]

/-- Relationships that leave the names are skipped. -/
theorem toList_relationshipLines (names : List String) (relationships : List Relationship) :
    (relationships.filterMap
        (relationshipLine? (names.zip (Label.identifiers names)))).map String.toList =
      (relationships.filter (Relationship.staysIn names)).map (lineOf names) := by
  simp only [List.map_filterMap, toList_relationshipLine?]
  exact List.filterMap_filter.symm.trans (congrFun List.filterMap_eq_map _)

theorem ofLines?_lineOf {names : List String} {relationships : List Relationship}
    (h : ∀ relationship ∈ relationships, relationship.staysIn names = true) :
    DrawnModel.ofLines? none (relationships.map (lineOf names)) =
      some ⟨[], relationships.map (Relationship.drawn (idOf names))⟩ := by
  have hends : ∀ relationship ∈ relationships,
      Label.IsId (idOf names relationship.source).toList ∧
        Label.IsId (idOf names relationship.target).toList := by
    intro relationship hmem
    obtain ⟨hsource, htarget⟩ := Relationship.staysIn_iff.mp (h relationship hmem)
    exact ⟨isId_idOf hsource, isId_idOf htarget⟩
  apply DrawnModel.ofLines?_relationships
  · rw [List.forall_mem_map]
    exact fun relationship hmem => heading_relationshipLine _ (hends relationship hmem).1
  · apply DrawnModel.relationships?_map
    intro relationship hmem
    rw [lineOf, relationship_relationshipLine _ (hends relationship hmem).1
      (hends relationship hmem).2 (Label.quote_not_mem_escape _)]
    simp only [String.ofList_toList, Relationship.drawn]

theorem lines_render (limits : Limits) (entities : List Entity) :
    Text.lines (render limits entities).markup.toList = (lines entities).map String.toList :=
  Diagram.lines_join_lines fun _ hline => (plainLine_of_mem_lines hline).unbroken

/-! ### Diagrams -/

/-- What the markup draws where every name leads to an identifier of its own. -/
theorem ofMarkup?_render {entities : List Entity} (hnodup : (entities.map Entity.name).Nodup)
    (limits : Limits) :
    DrawnModel.ofMarkup? (render limits entities).markup = some
      { entities := entities.map (Entity.drawn (idOf (entities.map Entity.name)))
        relationships := ((entities.flatMap Entity.relationships).filter
          (Relationship.staysIn (entities.map Entity.name))).map
            (Relationship.drawn (idOf (entities.map Entity.name))) } := by
  have hids : ∀ pair ∈ (Label.identifiers (entities.map Entity.name)).zip entities,
      Label.IsId pair.1.toList :=
    fun pair hpair => Label.isId_of_mem_identifiers (List.of_mem_zip hpair).1
  have hzip : (Label.identifiers (entities.map Entity.name)).zip entities =
      entities.map fun entity => (idOf (entities.map Entity.name) entity.name, entity) := by
    rw [List.map_prod_right_eq_zip, ← map_idOf hnodup, List.map_map]
    rfl
  rw [DrawnModel.ofMarkup?, lines_render, lines, List.cons_append, List.map_cons, List.map_append]
  simp only [if_true]
  rw [DrawnModel.ofLines?_flatMap hids, ← List.filterMap_flatMap, toList_relationshipLines,
    ofLines?_lineOf fun _ hmem => (List.mem_filter.mp hmem).2, Option.map_some, hzip, List.map_map,
    List.append_nil]
  rfl

/-- The markup draws the entities in order, each with its attributes and under an identifier of
its own, and then the relationships between them. The entities of a document are related to each
other only, so none of their relationships is skipped. -/
theorem drawing_render :
    (∀ (limits : Limits) (entities : List Entity), (entities.map Entity.name).Nodup →
      ∃ idOf : String → String, (entities.map fun entity => idOf entity.name).Nodup ∧
        DrawnModel.ofMarkup? (render limits entities).markup = some
          { entities := entities.map (Entity.drawn idOf)
            relationships := ((entities.flatMap Entity.relationships).filter
              (Relationship.staysIn (entities.map Entity.name))).map (Relationship.drawn idOf) }) ∧
    ∀ (limits : Limits) (document : Text) (found : Findings Entity),
      Entity.ofDocument? document = some found →
        (found.records.map Entity.name).Nodup ∧
        (∀ relationship ∈ found.records.flatMap Entity.relationships,
          relationship.staysIn (found.records.map Entity.name) = true) ∧
        ∃ drawn, DrawnModel.ofMarkup? (render limits found.records).markup = some drawn ∧
          drawn.relationships.length = (found.records.flatMap Entity.relationships).length := by
  refine ⟨fun limits entities hnodup => ?_, fun limits document found hfound => ?_⟩
  · refine ⟨idOf (entities.map Entity.name), ?_, ofMarkup?_render hnodup limits⟩
    have hids := Label.nodup_identifiers (entities.map Entity.name)
    rwa [← map_idOf hnodup, List.map_map] at hids
  · obtain ⟨lines, -, rfl⟩ := Option.map_eq_some_iff.mp hfound
    have hnodup := Entity.nodup_names_ofSection lines
    have hstays : ∀ relationship ∈ (Entity.ofSection lines).records.flatMap Entity.relationships,
        relationship.staysIn ((Entity.ofSection lines).records.map Entity.name) = true := by
      intro relationship hmem
      obtain ⟨entity, hentity, hmem⟩ := List.mem_flatMap.mp hmem
      obtain ⟨hsource, htarget⟩ := Entity.source_and_target_ofSection hentity hmem
      rw [Relationship.staysIn_iff, hsource]
      exact ⟨List.mem_map_of_mem hentity, htarget⟩
    refine ⟨hnodup, hstays, _, ofMarkup?_render hnodup limits, ?_⟩
    rw [List.length_map, List.filter_eq_self.mpr hstays]

/-- Two names that make one identifier, and a relationship to nobody. -/
theorem drawing_render_lookalikes :
    let entities : List Entity :=
      [⟨"Line item", "", [⟨"id", "int[]", true, true⟩],
          [⟨"Line item", "Line_item", .oneToMany, "has \"one\""⟩,
            ⟨"Line item", "Nobody", .oneToOne, "knows"⟩]⟩,
        ⟨"Line_item", "", [], []⟩]
    let document := "### Key Entities\n\n- **Order**: Has many Line item.\n- **Line item**\n".toList
    (∃ idOf : String → String, idOf "Line item" ≠ idOf "Line_item" ∧
      DrawnModel.ofMarkup? (render ⟨1, 1⟩ entities).markup = some
        ⟨[⟨idOf "Line item", some [⟨"int[]", "id", true, true⟩]⟩, ⟨idOf "Line_item", none⟩],
          [⟨idOf "Line item", idOf "Line_item", .oneToMany, "has #quot;one#quot;"⟩]⟩) ∧
      ∃ found drawn, Entity.ofDocument? document = some found ∧
        DrawnModel.ofMarkup? (render ⟨1, 1⟩ found.records).markup = some drawn ∧
        drawn.relationships.length = (found.records.flatMap Entity.relationships).length := by
  intro entities document
  constructor
  · obtain ⟨idOf, hnodup, hdrawn⟩ := drawing_render.1 ⟨1, 1⟩ entities (by decide)
    refine ⟨idOf, fun heq => ?_, hdrawn.trans rfl⟩
    simp [entities, heq] at hnodup
  · obtain ⟨found, hfound⟩ := Option.isSome_iff_exists.mp
      (by decide : (Entity.ofDocument? document).isSome = true)
    obtain ⟨-, -, drawn, hdrawn, hlength⟩ := drawing_render.2 ⟨1, 1⟩ document found hfound
    exact ⟨found, drawn, hfound, hdrawn, hlength⟩

end DataModel
end DiagramSync
