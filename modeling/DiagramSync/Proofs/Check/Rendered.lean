import DiagramSync.Proofs.Check.DataModel
import DiagramSync.Proofs.Check.Flowchart
import DiagramSync.Proofs.Entity.Declaration

/-!
What is rendered passes the check of its markup, whatever the document says. Types of attributes
are as they have to be for it when they are read from a document.
-/

namespace DiagramSync

open Text

/-! ### Types that are read -/

theorem Declaration.IsType.bracketsAtEnd {type : Text} (h : IsType type) :
    Attribute.BracketsAtEnd (String.ofList type) := by
  have hfree : ∀ {name}, IsTypeName name → '[' ∉ name ∧ ']' ∉ name := fun hname =>
    ⟨fun hmem => absurd (hname.isTypeChar _ hmem) (by decide),
      fun hmem => absurd (hname.isTypeChar _ hmem) (by decide)⟩
  rw [Attribute.BracketsAtEnd, String.toList_ofList]
  obtain hname | ⟨name, hname, rfl⟩ := h
  · exact ⟨type, (hfree hname).1, (hfree hname).2, .inl rfl⟩
  · exact ⟨name, (hfree hname).1, (hfree hname).2, .inr rfl⟩

namespace Entity

theorem type_of_mem_declare {entry : EntityEntry} {names : List Text} {hasPrimaryKey : Bool}
    {declarations : List Declaration} {attr : Attribute}
    (h : attr ∈ (declare entry names hasPrimaryKey declarations).records) :
    ∃ declaration ∈ declarations, attr.type = String.ofList declaration.type := by
  induction declarations generalizing names hasPrimaryKey with
  | nil => contradiction
  | cons declaration rest ih =>
    have hrest : ∀ {names hasPrimaryKey}, attr ∈ (declare entry names hasPrimaryKey rest).records →
        ∃ other ∈ declaration :: rest, attr.type = String.ofList other.type := by
      intro names hasPrimaryKey hmem
      obtain ⟨other, hother, htype⟩ := ih hmem
      exact ⟨other, List.mem_cons_of_mem _ hother, htype⟩
    have hfirst : ∀ isPrimaryKey, attr = attributeOf declaration isPrimaryKey →
        ∃ other ∈ declaration :: rest, attr.type = String.ofList other.type := by
      rintro isPrimaryKey rfl
      exact ⟨declaration, List.mem_cons_self, rfl⟩
    rw [declare] at h
    split at h
    · exact hrest h
    · split at h
      · exact (List.mem_cons.mp h).elim (hfirst _) hrest
      · exact (List.mem_cons.mp h).elim (hfirst _) hrest

/-- An entity that is read has attributes of types that markup can hold. -/
theorem bracketsAtEnd_of_mem_ofDocument? {document : Text} {found : Findings Entity}
    (hfound : ofDocument? document = some found) {entity : Entity}
    (hentity : entity ∈ found.records) {attr : Attribute} (hattr : attr ∈ entity.attributes) :
    Attribute.BracketsAtEnd attr.type := by
  obtain ⟨lines, -, rfl⟩ := Option.map_eq_some_iff.mp hfound
  obtain ⟨described, hdescribed, hentity⟩ := List.mem_flatMap.mp hentity
  obtain ⟨entry, -, rfl⟩ := List.mem_map.mp hdescribed
  obtain rfl := List.mem_singleton.mp hentity
  obtain ⟨declaration, hdeclaration, htype⟩ := type_of_mem_declare hattr
  rw [htype]
  exact (Declaration.wellFormed_of_mem_all declaration hdeclaration).2.bracketsAtEnd

end Entity

/-! ### Diagrams -/

theorem Markup.errors_check {kind : Kind} {markup : String} (h : faults kind markup.toList = []) :
    (check kind markup).errors = [] := by
  rw [check, h]
  rfl

/-- The check finds no fault with what is rendered: not with the flowchart of any stories, and not
with the diagram of any entities whose attributes have no brackets in their types but a pair at
the end, as those have that are read from a document. -/
theorem errors_check_render :
    (∀ (limits : Limits) (stories : List Story),
      (Markup.check .journey (Journey.render limits stories).markup).errors = []) ∧
    (∀ (limits : Limits) (entities : List Entity),
      (∀ entity ∈ entities, ∀ attr ∈ entity.attributes, Attribute.BracketsAtEnd attr.type) →
        (Markup.check .entityRelationship (DataModel.render limits entities).markup).errors = []) ∧
    ∀ (document : Text) (found : Findings Entity), Entity.ofDocument? document = some found →
      ∀ entity ∈ found.records, ∀ attr ∈ entity.attributes,
        Attribute.BracketsAtEnd attr.type := by
  refine ⟨fun limits stories => ?_, fun limits entities htypes => ?_,
    fun document found hfound entity hentity attr hattr => ?_⟩
  · exact Markup.errors_check (Journey.faults_markup limits stories)
  · exact Markup.errors_check (DataModel.faults_markup limits htypes)
  · exact Entity.bracketsAtEnd_of_mem_ofDocument? hfound hentity hattr

/-- Names, types and labels that look like markup themselves. -/
theorem errors_check_render_lookalikes :
    let basket : Entity := ⟨"Basket \x7bend\x7d", "", [⟨"a--b", "a--b[]", true, false⟩],
      [⟨"Basket \x7bend\x7d", "Basket \x7bend\x7d", .manyToMany, "]\" ||--o\x7b %%"⟩]⟩
    let document := "### Key Entities\n\n- **Basket**: Holds `tags: string[]`.\n".toList
    (∀ attr ∈ basket.attributes, Attribute.BracketsAtEnd attr.type) ∧
      (Markup.check .entityRelationship (DataModel.render ⟨1, 1⟩ [basket]).markup).errors = [] ∧
      ∃ found, Entity.ofDocument? document = some found ∧
        ∀ entity ∈ found.records, ∀ attr ∈ entity.attributes,
          Attribute.BracketsAtEnd attr.type := by
  intro basket document
  have htypes : ∀ attr ∈ basket.attributes, Attribute.BracketsAtEnd attr.type := by
    rw [List.forall_mem_singleton]
    exact ⟨"a--b".toList, by decide, by decide, .inr rfl⟩
  obtain ⟨found, hfound⟩ := Option.isSome_iff_exists.mp
    (by decide : (Entity.ofDocument? document).isSome = true)
  refine ⟨htypes, ?_, found, hfound, errors_check_render.2.2 document found hfound⟩
  exact errors_check_render.2.1 ⟨1, 1⟩ [basket] (List.forall_mem_singleton.mpr htypes)

end DiagramSync
