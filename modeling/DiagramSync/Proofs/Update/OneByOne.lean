import DiagramSync.Proofs.Update.Settled
import DiagramSync.Proofs.Update.Slot

/-!
Updates that are made one diagram after another. If every diagram has its region in the document,
an update may begin with any one of them: it leaves to the others what they would have found, at
another place.
-/

namespace DiagramSync

open Text Update

namespace Slot

variable {slot : Slot} {content : Text} {diagram : Diagram}

theorem proper_fill_codeBlock (hproper : (slot.fill content).Proper) (h : diagram.Unmarked) :
    (slot.fill (codeBlock diagram.markup)).Proper :=
  proper_fill hproper (h.quiet slot.name) (whole_codeBlock diagram.markup)

/-- Once the slot holds its block, its diagram has no part in an update. -/
theorem text_ofDiagrams_codeBlock (hproper : (slot.fill (codeBlock diagram.markup)).Proper)
    (hnodup : (slot.fill (codeBlock diagram.markup)).names.Nodup)
    (hname : diagram.kind.name = slot.name) (anchor : Kind → Anchor)
    (first second : List Diagram) :
    let layout := slot.fill (codeBlock diagram.markup)
    (ofDiagrams layout.text (layout.regions 0) anchor (first ++ diagram :: second)).text =
      (ofDiagrams layout.text (layout.regions 0) anchor (first ++ second)).text := by
  intro layout
  have hown : slot.own diagram (codeBlock diagram.markup) = [] := if_pos rfl
  have hplanned : plannedEdits layout.text (layout.regions 0) anchor
      (first ++ diagram :: second) =
        plannedEdits layout.text (layout.regions 0) anchor (first ++ second) := by
    rw [plannedEdits_fill hproper hnodup anchor first second hname, hown, List.append_nil]
    simp only [planned, plannedEdits, List.filterMap_append]
    rfl
  rw [text_ofDiagrams, text_ofDiagrams, hplanned]

/-- An update among regions may begin with that of the slot. -/
theorem text_ofDiagrams_fill_codeBlock (hproper : (slot.fill content).Proper)
    (hnodup : (slot.fill content).names.Nodup) (hname : diagram.kind.name = slot.name)
    (hunmarked : diagram.Unmarked) (anchor : Kind → Anchor) (first second : List Diagram)
    (hkinds : ((first ++ diagram :: second).map Diagram.kind).Nodup)
    (hothers : ∀ other ∈ first ++ second, other.kind.name ∈ (slot.fill content).names) :
    let layout := slot.fill (codeBlock diagram.markup)
    (ofDiagrams (slot.fill content).text ((slot.fill content).regions 0) anchor
        (first ++ diagram :: second)).text =
      (ofDiagrams layout.text (layout.regions 0) anchor (first ++ second)).text := by
  intro layout
  have hproper' : layout.Proper := proper_fill_codeBlock hproper hunmarked
  have hnodup' : layout.names.Nodup := by rwa [names_fill] at hnodup ⊢
  have hmem : diagram ∈ first ++ diagram :: second := by simp
  rw [text_ofDiagrams_of_parallels hproper hproper' hnodup hkinds hmem hname,
    text_ofDiagrams_codeBlock hproper' hnodup' hname]
  intro other hother hne
  have hother : other ∈ first ++ second := by
    rw [List.mem_append, List.mem_cons] at hother
    rw [List.mem_append]
    obtain hfirst | rfl | hsecond := hother
    · exact .inl hfirst
    · exact absurd hname hne
    · exact .inr hsecond
  exact parallels_of_mem_names hproper hproper' hnodup _ hne (hothers other hother)

end Slot

namespace Update

variable {document : Text} {found : Findings Region}

/-- An update among regions gives the same text if one of its diagrams goes ahead and the regions
are found afresh for the others. -/
theorem exists_found_ahead (hfound : Region.ofDocument document = .ok found)
    (hterminated : ∀ region ∈ found.records, region.terminated = true) {diagram : Diagram}
    (hunmarked : diagram.Unmarked)
    (hregion : (Region.named? found.records diagram.kind.name).isSome = true)
    (anchor : Kind → Anchor) :
    let ahead := ofDiagrams document found.records anchor [diagram]
    ∃ found', Region.ofDocument ahead.text = .ok found' ∧
      ∀ first second : List Diagram, ((first ++ diagram :: second).map Diagram.kind).Nodup →
        (∀ other ∈ first ++ second,
          (Region.named? found.records other.kind.name).isSome = true) →
        (ofDiagrams document found.records anchor (first ++ diagram :: second)).text =
          (ofDiagrams ahead.text found'.records anchor (first ++ second)).text := by
  intro ahead
  obtain ⟨region, hnamed⟩ := Option.isSome_iff_exists.mp hregion
  have hmem : region ∈ found.records := List.mem_of_find?_eq_some hnamed
  obtain ⟨slot, hproper, hnodup, rfl, hrecords, hslot, -⟩ :=
    Slot.exists_fill hfound hmem (hterminated region hmem)
  have hname : diagram.kind.name = slot.name := by
    have hsame := List.find?_some hnamed
    rw [hslot, beq_iff_eq.mp hsame]
  have hnodup' : (slot.fill (codeBlock diagram.markup)).names.Nodup := by
    rwa [Slot.names_fill] at hnodup ⊢
  obtain ⟨found', hfound', hrecords'⟩ :=
    Layout.ofDocument_text (Slot.proper_fill_codeBlock hproper hunmarked) hnodup'
  have hahead : ahead.text = (slot.fill (codeBlock diagram.markup)).text := by
    have hsingle := Slot.text_ofDiagrams_fill_codeBlock hproper hnodup hname hunmarked anchor
      [] [] (by simp) (by simp)
    rw [← hrecords] at hsingle
    exact hsingle.trans (apply_nil _)
  rw [hahead]
  refine ⟨found', hfound', fun first second hkinds hothers => ?_⟩
  rw [hrecords] at hothers ⊢
  rw [hrecords']
  refine Slot.text_ofDiagrams_fill_codeBlock hproper hnodup hname hunmarked anchor
    first second hkinds ?_
  intro other hother
  by_contra hnone
  rw [← named?_eq_none_iff 0] at hnone
  simpa [hnone] using hothers other hother

/-- Two diagrams that have their regions can be brought up to date one after the other, in either
order, or together: it gives one and the same text, in which both regions hold their blocks. -/
theorem ofDiagrams_one_by_one (hfound : Region.ofDocument document = .ok found)
    (hterminated : ∀ region ∈ found.records, region.terminated = true) (anchor : Kind → Anchor)
    (journey entities : Diagram) (hjourney : journey.kind = .journey)
    (hentities : entities.kind = .entityRelationship)
    (hjourneyRegion : (Region.named? found.records Kind.journey.name).isSome = true)
    (hentitiesRegion : (Region.named? found.records Kind.entityRelationship.name).isSome = true)
    (hjourneyUnmarked : journey.Unmarked) (hentitiesUnmarked : entities.Unmarked) :
    let update := ofDiagrams document found.records anchor
    ∃ foundJourney foundEntities foundBoth,
      Region.ofDocument (update [journey]).text = .ok foundJourney ∧
      Region.ofDocument (update [entities]).text = .ok foundEntities ∧
      Region.ofDocument (update [journey, entities]).text = .ok foundBoth ∧
      (ofDiagrams (update [journey]).text foundJourney.records anchor [entities]).text =
        (update [journey, entities]).text ∧
      (ofDiagrams (update [entities]).text foundEntities.records anchor [journey]).text =
        (update [journey, entities]).text ∧
      (update [entities, journey]).text = (update [journey, entities]).text ∧
      ∀ diagram ∈ [journey, entities], ∃ region,
        Region.named? foundBoth.records diagram.kind.name = some region ∧
          holds region (codeBlock diagram.markup) = true := by
  intro update
  rw [← hjourney] at hjourneyRegion
  rw [← hentities] at hentitiesRegion
  have hkinds : ([journey, entities].map Diagram.kind).Nodup := by simp [hjourney, hentities]
  have hkinds' : ([entities, journey].map Diagram.kind).Nodup := by simp [hjourney, hentities]
  obtain ⟨foundJourney, hfoundJourney, hjourneyAhead⟩ :=
    exists_found_ahead hfound hterminated hjourneyUnmarked hjourneyRegion anchor
  obtain ⟨foundEntities, hfoundEntities, hentitiesAhead⟩ :=
    exists_found_ahead hfound hterminated hentitiesUnmarked hentitiesRegion anchor
  have hjourneyFirst := hjourneyAhead [] [entities] hkinds (by simpa using hentitiesRegion)
  have hjourneyLast := hjourneyAhead [entities] [] hkinds' (by simpa using hentitiesRegion)
  have hentitiesLast := hentitiesAhead [journey] [] hkinds (by simpa using hjourneyRegion)
  have hunmarked : ∀ diagram ∈ [journey, entities], diagram.Unmarked := by
    simpa using ⟨hjourneyUnmarked, hentitiesUnmarked⟩
  obtain ⟨foundBoth, hfoundBoth, hregions⟩ :=
    exists_regions_of_terminated hfound hterminated anchor hkinds hunmarked
  exact ⟨foundJourney, foundEntities, foundBoth, hfoundJourney, hfoundEntities, hfoundBoth,
    hjourneyFirst.symm, hentitiesLast.symm, hjourneyLast.trans hjourneyFirst.symm, hregions⟩

/-- An outdated region, which leaves a fence open, in front of an empty one. -/
theorem ofDiagrams_one_by_one_outdated :
    let document := ("<!-- specgram:begin section=\"entity-relationship\" -->\n```\nold\n" ++
      "<!-- specgram:end section=\"entity-relationship\" -->\n" ++
      "<!-- specgram:begin section=\"journey\" -->\n" ++
      "<!-- specgram:end section=\"journey\" -->").toList
    let anchor : Kind → Anchor := fun _ => ⟨"Shop", .endOfSection⟩
    let journey : Diagram := ⟨.journey, "flowchart TD\n", 0, .pass⟩
    let entities : Diagram := ⟨.entityRelationship, "erDiagram\n", 0, .pass⟩
    ∃ found, Region.ofDocument document = .ok found ∧
      (∀ region ∈ found.records, region.terminated = true) ∧
      (Region.named? found.records Kind.journey.name).isSome = true ∧
      (Region.named? found.records Kind.entityRelationship.name).isSome = true ∧
      journey.Unmarked ∧ entities.Unmarked ∧
      let update := ofDiagrams document found.records anchor
      ∃ foundJourney foundEntities foundBoth,
        Region.ofDocument (update [journey]).text = .ok foundJourney ∧
        Region.ofDocument (update [entities]).text = .ok foundEntities ∧
        Region.ofDocument (update [journey, entities]).text = .ok foundBoth ∧
        (ofDiagrams (update [journey]).text foundJourney.records anchor [entities]).text =
          (update [journey, entities]).text ∧
        (ofDiagrams (update [entities]).text foundEntities.records anchor [journey]).text =
          (update [journey, entities]).text ∧
        (update [entities, journey]).text = (update [journey, entities]).text ∧
        ∀ diagram ∈ [journey, entities], ∃ region,
          Region.named? foundBoth.records diagram.kind.name = some region ∧
            holds region (codeBlock diagram.markup) = true := by
  intro document anchor journey entities
  have haccepted : (Region.ofDocument document).toOption.map (fun found =>
      (found.records.all Region.terminated,
        (Region.named? found.records Kind.journey.name).isSome,
        (Region.named? found.records Kind.entityRelationship.name).isSome)) =
      some (true, true, true) := by decide +kernel
  obtain ⟨found, hfound, hregions⟩ := Region.exists_found haccepted
  obtain ⟨hterminated, hjourney, hentities⟩ :
      (∀ region ∈ found.records, region.terminated = true) ∧
        (Region.named? found.records Kind.journey.name).isSome = true ∧
          (Region.named? found.records Kind.entityRelationship.name).isSome = true := by
    simpa only [Prod.mk.injEq, List.all_eq_true] using hregions
  have hunmarked : journey.Unmarked ∧ entities.Unmarked := by decide
  exact ⟨found, hfound, hterminated, hjourney, hentities, hunmarked.1, hunmarked.2,
    ofDiagrams_one_by_one hfound hterminated anchor journey entities rfl rfl hjourney hentities
      hunmarked.1 hunmarked.2⟩

end Update
end DiagramSync
