import DiagramSync.Proofs.Update.Fitting
import Mathlib.Data.List.Nodup
import Mathlib.Data.List.Perm.Basic

/-!
What an update settles: the updated document is accepted, it has the old regions and those of
the diagrams, and another update for the same diagrams changes nothing.
-/

namespace DiagramSync.Update

open Text

/-! ### Diagrams by outcome -/

theorem inserted_plannedEdits (document : Text) (regions : List Region) (anchor : Kind → Anchor)
    (diagrams : List Diagram) :
    inserted (plannedEdits document regions anchor diagrams) =
      diagrams.filter fun diagram => (Region.named? regions diagram.kind.name).isNone := by
  induction diagrams with
  | nil => rfl
  | cons diagram rest ih =>
    simp only [inserted, plannedEdits] at ih ⊢
    cases h : Region.named? regions diagram.kind.name with
    | none => simp [plan_of_none h, h, ih, List.filter_cons]
    | some region =>
      cases hholds : holds region (codeBlock diagram.markup) with
      | true => simp [plan_of_holds h hholds, h, ih]
      | false => simp [plan_of_not_holds h hholds, h, ih]

theorem replaced_plannedEdits (document : Text) (regions : List Region) (anchor : Kind → Anchor)
    (diagrams : List Diagram) :
    replaced (plannedEdits document regions anchor diagrams) =
      diagrams.filter fun diagram => (Region.named? regions diagram.kind.name).any
        fun region => !holds region (codeBlock diagram.markup) := by
  induction diagrams with
  | nil => rfl
  | cons diagram rest ih =>
    simp only [replaced, plannedEdits] at ih ⊢
    cases h : Region.named? regions diagram.kind.name with
    | none => simp [plan_of_none h, h, ih]
    | some region =>
      cases hholds : holds region (codeBlock diagram.markup) with
      | true => simp [plan_of_holds h hholds, h, hholds, ih]
      | false => simp [plan_of_not_holds h hholds, h, hholds, ih]

theorem perm_inserted_inOrder (planned : List (Diagram × Edit)) :
    (inserted (inOrder planned)).Perm (inserted planned) :=
  ((List.mergeSort_perm planned _).filter _).map Prod.fst

theorem perm_replaced_inOrder (planned : List (Diagram × Edit)) :
    (replaced (inOrder planned)).Perm (replaced planned) :=
  ((List.mergeSort_perm planned _).filter _).map Prod.fst

/-! ### The layout of an updated document -/

section Layouts

variable {layout : Layout} {anchor : Kind → Anchor} {diagrams : List Diagram}

/-- The updated document of edits that fit has the old regions and those of the diagrams. -/
theorem exists_updated_of_fits (hproper : layout.Proper) {rest : Layout}
    (hfits : Fits 0 layout
      (inOrder (plannedEdits layout.text (layout.regions 0) anchor diagrams)) rest)
    (hunmarked : ∀ diagram ∈ diagrams, diagram.Unmarked) :
    ∃ updated : Layout, ∃ inserted replaced, updated.Proper ∧
      updated.text = (ofDiagrams layout.text (layout.regions 0) anchor diagrams).text ∧
      Revised inserted replaced layout.entries updated.entries ∧
      inserted.Perm (diagrams.filter fun diagram =>
        (Region.named? (layout.regions 0) diagram.kind.name).isNone) ∧
      replaced.Perm (diagrams.filter fun diagram =>
        (Region.named? (layout.regions 0) diagram.kind.name).any
          fun region => !holds region (codeBlock diagram.markup)) := by
  let planned := plannedEdits layout.text (layout.regions 0) anchor diagrams
  have hpairs : ∀ pair ∈ inOrder planned, pair.1.Unmarked := by
    intro pair hpair
    exact hunmarked pair.1 (placed_of_mem_plannedEdits hproper (mem_inOrder.mp hpair)).1
  obtain ⟨front, written, old, new, hprogress, hold, hnew, hrevised, -, hout⟩ :=
    carryOut_fits hfits hpairs rfl (Progress.start hproper)
  refine ⟨written ++ rest, inserted (inOrder planned), replaced (inOrder planned), ?_, ?_, ?_,
    ?_, ?_⟩
  · exact Layout.proper_append.mpr
      ⟨hprogress.written_proper, hprogress.closed, hprogress.left_proper⟩
  · have hend := hout [] (by simp)
    rw [List.append_nil, carryOut, hprogress.document_eq, dropBytes_size_append,
      ← hprogress.document_eq] at hend
    rw [text_ofDiagrams, Layout.text_append, ← hend]
    rfl
  · rw [Layout.entries_append, hold, hnew]
    exact hrevised.append_keep rest.entries
  · rw [← inserted_plannedEdits layout.text (layout.regions 0) anchor diagrams]
    exact perm_inserted_inOrder planned
  · rw [← replaced_plannedEdits layout.text (layout.regions 0) anchor diagrams]
    exact perm_replaced_inOrder planned

theorem nodup_names_updated (hnodup : layout.names.Nodup)
    (hkinds : (diagrams.map Diagram.kind).Nodup) {updated : Layout}
    {inserted replaced : List Diagram}
    (hrevised : Revised inserted replaced layout.entries updated.entries)
    (hinserted : inserted.Perm (diagrams.filter fun diagram =>
      (Region.named? (layout.regions 0) diagram.kind.name).isNone)) : updated.names.Nodup := by
  have hnames : (diagrams.map fun diagram => diagram.kind.name).Nodup := by
    rw [List.Nodup, List.pairwise_map] at hkinds ⊢
    exact hkinds.imp fun hne hsame => hne (Kind.name_injective hsame)
  rw [← Layout.map_name_entries, hrevised.names_perm.nodup_iff, Layout.map_name_entries,
    List.nodup_append]
  refine ⟨hnodup, ?_, ?_⟩
  · rw [(hinserted.map _).nodup_iff]
    exact hnames.sublist (List.filter_sublist.map _)
  · intro name hname other hother
    rintro rfl
    obtain ⟨diagram, hdiagram, rfl⟩ := List.mem_map.mp hother
    have hfresh := (List.mem_filter.mp (hinserted.mem_iff.mp hdiagram)).2
    rw [Option.isNone_iff_eq_none] at hfresh
    exact (named?_eq_none_iff 0 _).mp hfresh hname

theorem entry_mem_updated (hkinds : (diagrams.map Diagram.kind).Nodup)
    {updated : Layout} {inserted replaced : List Diagram}
    (hrevised : Revised inserted replaced layout.entries updated.entries)
    (hinserted : inserted.Perm (diagrams.filter fun diagram =>
      (Region.named? (layout.regions 0) diagram.kind.name).isNone))
    (hreplaced : replaced.Perm (diagrams.filter fun diagram =>
      (Region.named? (layout.regions 0) diagram.kind.name).any
        fun region => !holds region (codeBlock diagram.markup)))
    {diagram : Diagram} (hmem : diagram ∈ diagrams) : diagram.entry ∈ updated.entries := by
  cases h : Region.named? (layout.regions 0) diagram.kind.name with
  | none =>
    apply hrevised.entry_mem
    left
    rw [hinserted.mem_iff, List.mem_filter]
    exact ⟨hmem, by simp [h]⟩
  | some region =>
    cases hholds : holds region (codeBlock diagram.markup) with
    | false =>
      apply hrevised.entry_mem
      right
      rw [hreplaced.mem_iff, List.mem_filter]
      exact ⟨hmem, by simp [h, hholds]⟩
    | true =>
      have hentry : region.entry = diagram.entry := by
        have hname := List.find?_some h
        simp only [holds, Bool.and_eq_true, beq_iff_eq] at hholds hname
        rw [Region.entry, Diagram.entry, hholds.1, ← hholds.2, hname, String.ofList_toList]
      apply hrevised.mem_of_kept
      · rw [← Layout.map_entry_regions 0, ← hentry]
        exact List.mem_map_of_mem (List.mem_of_find?_eq_some h)
      · intro other hother hsame
        obtain ⟨hotherMem, houtdated⟩ := List.mem_filter.mp (hreplaced.mem_iff.mp hother)
        have hkind : other.kind = diagram.kind := Kind.name_injective hsame
        obtain rfl : other = diagram := List.inj_on_of_nodup_map hkinds hotherMem hmem hkind
        simp [h, hholds] at houtdated

theorem named?_of_entry_mem (hnodup : layout.names.Nodup) {entry : Entry}
    (h : entry ∈ layout.entries) :
    ∃ region, Region.named? (layout.regions 0) entry.name = some region ∧
      region.entry = entry := by
  rw [← Layout.map_entry_regions 0] at h
  obtain ⟨region, hregion, rfl⟩ := List.mem_map.mp h
  rw [← Layout.map_name_regions 0] at hnodup
  exact ⟨region, Region.named?_of_mem hnodup hregion, rfl⟩

theorem holds_of_entry_eq {region : Region} {diagram : Diagram}
    (h : region.entry = diagram.entry) : holds region (codeBlock diagram.markup) = true := by
  simp only [Region.entry, Diagram.entry, Entry.mk.injEq] at h
  simp [holds, h]

theorem terminated_updated {updated : Layout} {inserted replaced : List Diagram}
    (hterminated : ∀ region ∈ layout.regions 0, region.terminated = true)
    (hrevised : Revised inserted replaced layout.entries updated.entries) :
    ∀ region ∈ updated.regions 0, region.terminated = true := by
  intro region hregion
  have hentry : region.entry ∈ updated.entries := by
    rw [← Layout.map_entry_regions 0]
    exact List.mem_map_of_mem hregion
  obtain hold | ⟨diagram, -, hdiagram⟩ := hrevised.kept_or_entry hentry
  · rw [← Layout.map_entry_regions 0] at hold
    obtain ⟨old, hmem, hsame⟩ := List.mem_map.mp hold
    exact (congrArg Entry.terminated hsame).symm.trans (hterminated old hmem)
  · exact congrArg Entry.terminated hdiagram

theorem content_named?_updated {updated : Layout} (hnodup : updated.names.Nodup)
    {inserted replaced : List Diagram}
    (hrevised : Revised inserted replaced layout.entries updated.entries) {name : String}
    (hother : ∀ diagram, diagram ∈ inserted ∨ diagram ∈ replaced → diagram.kind.name ≠ name) :
    (Region.named? (updated.regions 0) name).map Region.content =
      (Region.named? (layout.regions 0) name).map Region.content := by
  cases hbefore : Region.named? (layout.regions 0) name with
  | some region =>
    have hregion : region.entry ∈ layout.entries := by
      rw [← Layout.map_entry_regions 0]
      exact List.mem_map_of_mem (List.mem_of_find?_eq_some hbefore)
    obtain rfl : region.name = name := by simpa using List.find?_some hbefore
    have hkept : region.entry ∈ updated.entries :=
      hrevised.mem_of_kept hregion fun diagram hdiagram => hother diagram (.inr hdiagram)
    obtain ⟨region', hregion', hsame⟩ := named?_of_entry_mem hnodup hkept
    have hcontent : region'.content = region.content := congrArg Entry.content hsame
    rw [show region.entry.name = region.name from rfl] at hregion'
    rw [hregion', Option.map_some, Option.map_some, hcontent]
  | none =>
    have hnone : Region.named? (updated.regions 0) name = none := by
      rw [named?_eq_none_iff] at hbefore ⊢
      rw [← Layout.map_name_entries] at hbefore ⊢
      rw [hrevised.names_perm.mem_iff, List.mem_append]
      rintro (hold | hnew)
      · exact hbefore hold
      · obtain ⟨diagram, hdiagram, hname⟩ := List.mem_map.mp hnew
        exact hother diagram (.inl hdiagram) hname
    rw [hnone]

/-- The updated document of edits that fit is accepted, and every diagram has its region in it. -/
theorem exists_regions_of_fits (hproper : layout.Proper) (hnodup : layout.names.Nodup)
    (hkinds : (diagrams.map Diagram.kind).Nodup) {rest : Layout}
    (hfits : Fits 0 layout
      (inOrder (plannedEdits layout.text (layout.regions 0) anchor diagrams)) rest)
    (hunmarked : ∀ diagram ∈ diagrams, diagram.Unmarked) :
    ∃ found, Region.ofDocument (ofDiagrams layout.text (layout.regions 0) anchor diagrams).text =
        .ok found ∧
      ∀ diagram ∈ diagrams, ∃ region,
        Region.named? found.records diagram.kind.name = some region ∧
          holds region (codeBlock diagram.markup) = true := by
  obtain ⟨updated, inserted, replaced, hproper', htext, hrevised, hinserted, hreplaced⟩ :=
    exists_updated_of_fits hproper hfits hunmarked
  have hnodup' := nodup_names_updated hnodup hkinds hrevised hinserted
  obtain ⟨found, hfound, hrecords⟩ := Layout.ofDocument_text hproper' hnodup'
  refine ⟨found, htext ▸ hfound, fun diagram hmem => ?_⟩
  obtain ⟨region, hregion, hentry⟩ := named?_of_entry_mem hnodup'
    (entry_mem_updated hkinds hrevised hinserted hreplaced hmem)
  exact ⟨region, hrecords ▸ hregion, holds_of_entry_eq hentry⟩

end Layouts

/-! ### Updates that change nothing -/

theorem apply_nil (document : Text) : apply document [] = document := by
  simpa [apply, carryOut] using dropBytes_size_append [] document

theorem ofDiagrams_of_holds (document : Text) {regions : List Region} (anchor : Kind → Anchor)
    {diagrams : List Diagram}
    (h : ∀ diagram ∈ diagrams, ∃ region, Region.named? regions diagram.kind.name = some region ∧
      holds region (codeBlock diagram.markup) = true) :
    ofDiagrams document regions anchor diagrams =
      ⟨document, diagrams.map fun diagram => (diagram.kind, .unchanged)⟩ := by
  have hplans : (diagrams.map fun diagram =>
      (diagram.kind, plan document regions (anchor diagram.kind) diagram)) =
      diagrams.map fun diagram => (diagram.kind, RegionOutcome.unchanged, none) := by
    apply List.map_congr_left
    intro diagram hmem
    obtain ⟨region, hregion, hholds⟩ := h diagram hmem
    rw [plan_of_holds hregion hholds]
  have hnone : diagrams.filterMap (fun _ => (none : Option Edit)) = [] := by simp
  unfold ofDiagrams
  rw [hplans]
  simp only [List.filterMap_map, List.map_map, Function.comp_def, hnone, apply_nil]

/-! ### Outcomes -/

/-- Diagrams of one kind have one value, so the value found for a kind is that of its diagram. -/
theorem lookup_kind_of_mem {β : Type} {f : Diagram → β} {diagrams : List Diagram}
    {diagram : Diagram} (h : diagram ∈ diagrams)
    (hsame : ∀ other ∈ diagrams, other.kind = diagram.kind → f other = f diagram) :
    (diagrams.map fun diagram => (diagram.kind, f diagram)).lookup diagram.kind =
      some (f diagram) := by
  induction diagrams with
  | nil => contradiction
  | cons first rest ih =>
    rw [List.forall_mem_cons] at hsame
    rw [List.map_cons, List.lookup_cons]
    cases hkind : diagram.kind == first.kind with
    | true => exact congrArg some (hsame.1 (beq_iff_eq.mp hkind).symm)
    | false =>
      obtain rfl | hrest := List.mem_cons.mp h
      · simp at hkind
      · exact ih hrest hsame.2

/-! ### Documents without open regions -/

theorem exists_fits_of_terminated {layout : Layout} (hproper : layout.Proper)
    (hnodup : layout.names.Nodup)
    (hterminated : ∀ region ∈ layout.regions 0, region.terminated = true) (anchor : Kind → Anchor)
    {diagrams : List Diagram} (hkinds : (diagrams.map Diagram.kind).Nodup) :
    ∃ rest, Fits 0 layout
      (inOrder (plannedEdits layout.text (layout.regions 0) anchor diagrams)) rest := by
  have hstretches : ∀ stretch ∈ layout, stretch.terminated = true := by
    intro stretch hmem
    cases stretch with
    | plain piece => rfl
    | region name opener content closer =>
      obtain ⟨before, after, rfl⟩ := List.append_of_mem hmem
      exact hterminated _ (Layout.placed_mem_regions 0 before after name opener content closer)
  apply exists_fits_inOrder hproper hnodup anchor hkinds
  · apply (pairwise_kind_plannedEdits hkinds).imp_of_mem
    intro first second hfirst hsecond _ hinserts hreplaces heq
    obtain ⟨before, opener, hlayout, -⟩ :=
      (placed_of_mem_plannedEdits hproper hfirst).2.open_of_offset_eq hproper
        (placed_of_mem_plannedEdits hproper hsecond).2 hinserts hreplaces heq
    have hlast := hstretches (.region second.1.kind.name opener [] none) (by simp [hlayout])
    contradiction
  · intro pair _ _ _ stretch hmem hnot
    rw [hstretches stretch hmem] at hnot
    contradiction

theorem exists_regions_of_terminated {document : Text} {found : Findings Region}
    (hfound : Region.ofDocument document = .ok found)
    (hterminated : ∀ region ∈ found.records, region.terminated = true) (anchor : Kind → Anchor)
    {diagrams : List Diagram} (hkinds : (diagrams.map Diagram.kind).Nodup)
    (hunmarked : ∀ diagram ∈ diagrams, diagram.Unmarked) :
    ∃ found', Region.ofDocument (ofDiagrams document found.records anchor diagrams).text =
        .ok found' ∧
      ∀ diagram ∈ diagrams, ∃ region,
        Region.named? found'.records diagram.kind.name = some region ∧
          holds region (codeBlock diagram.markup) = true := by
  obtain ⟨layout, hproper, hnodup, rfl, hrecords⟩ := Region.exists_layout hfound
  rw [hrecords] at hterminated ⊢
  obtain ⟨rest, hfits⟩ := exists_fits_of_terminated hproper hnodup hterminated anchor hkinds
  exact exists_regions_of_fits hproper hnodup hkinds hfits hunmarked

/-- The updated document is accepted. It has the regions of the document, in the same order and
with the same content unless a diagram is theirs, and one new region for each diagram that had
none. The regions of the diagrams hold their blocks, and the same update once more changes
nothing. -/
theorem ofDiagrams_settles {document : Text} {found : Findings Region}
    (hfound : Region.ofDocument document = .ok found)
    (hterminated : ∀ region ∈ found.records, region.terminated = true) (anchor : Kind → Anchor)
    (diagrams : List Diagram) (hkinds : (diagrams.map Diagram.kind).Nodup)
    (hunmarked : ∀ diagram ∈ diagrams, diagram.Unmarked) :
    let update := ofDiagrams document found.records anchor diagrams
    ∃ found', Region.ofDocument update.text = .ok found' ∧
      (∀ region ∈ found'.records, region.terminated = true) ∧
      (found.records.map Region.name).Sublist (found'.records.map Region.name) ∧
      (found'.records.map Region.name).Perm (found.records.map Region.name ++
        (diagrams.filter fun diagram =>
          (Region.named? found.records diagram.kind.name).isNone).map
            fun diagram => diagram.kind.name) ∧
      (∀ name, (∀ diagram ∈ diagrams, diagram.kind.name ≠ name) →
        (Region.named? found'.records name).map Region.content =
          (Region.named? found.records name).map Region.content) ∧
      (∀ diagram ∈ diagrams,
        (Region.named? found'.records diagram.kind.name).map Region.content =
          some (String.ofList (codeBlock diagram.markup))) ∧
      ofDiagrams update.text found'.records anchor diagrams =
        ⟨update.text, diagrams.map fun diagram => (diagram.kind, .unchanged)⟩ := by
  obtain ⟨layout, hproper, hnodup, rfl, hrecords⟩ := Region.exists_layout hfound
  rw [hrecords] at hterminated ⊢
  intro update
  obtain ⟨rest, hfits⟩ := exists_fits_of_terminated hproper hnodup hterminated anchor hkinds
  obtain ⟨updated, inserted, replaced, hproper', htext, hrevised, hinserted, hreplaced⟩ :=
    exists_updated_of_fits hproper hfits hunmarked
  have hnodup' := nodup_names_updated hnodup hkinds hrevised hinserted
  obtain ⟨found', hfound', hrecords'⟩ := Layout.ofDocument_text hproper' hnodup'
  have hentries : ∀ diagram ∈ diagrams, diagram.entry ∈ updated.entries :=
    fun diagram hmem => entry_mem_updated hkinds hrevised hinserted hreplaced hmem
  have hnames : ∀ layout : Layout, (layout.regions 0).map Region.name =
      layout.entries.map Entry.name := by
    intro layout
    rw [Layout.map_name_regions, Layout.map_name_entries]
  rw [htext] at hfound'
  refine ⟨found', hfound', ?_, ?_, ?_, ?_, ?_, ?_⟩
  · rw [hrecords']
    exact terminated_updated hterminated hrevised
  · rw [hrecords', hnames, hnames]
    exact hrevised.names_sublist
  · rw [hrecords', hnames, hnames]
    exact hrevised.names_perm.trans ((hinserted.map _).append_left _)
  · intro name hother
    rw [hrecords']
    apply content_named?_updated hnodup' hrevised
    rintro diagram (hdiagram | hdiagram)
    · exact hother diagram (List.mem_filter.mp (hinserted.mem_iff.mp hdiagram)).1
    · exact hother diagram (List.mem_filter.mp (hreplaced.mem_iff.mp hdiagram)).1
  · intro diagram hmem
    obtain ⟨region, hregion, hentry⟩ := named?_of_entry_mem hnodup' (hentries diagram hmem)
    rw [show diagram.entry.name = diagram.kind.name from rfl] at hregion
    rw [hrecords', hregion, Option.map_some]
    exact congrArg (some ∘ Entry.content) hentry
  · apply ofDiagrams_of_holds
    intro diagram hmem
    obtain ⟨region, hregion, hentry⟩ := named?_of_entry_mem hnodup' (hentries diagram hmem)
    exact ⟨region, hrecords' ▸ hregion, holds_of_entry_eq hentry⟩

/-- One region is out of date and its end marker's line is not complete, the other is missing. -/
theorem ofDiagrams_settles_outdated :
    let document := ("# Shop\n<!-- specgram:begin section=\"journey\" -->\nold\n" ++
      "<!-- specgram:end section=\"journey\" -->").toList
    let anchor : Kind → Anchor := fun _ => ⟨"Basket", .endOfSection⟩
    let diagrams : List Diagram :=
      [⟨.journey, "flowchart TD\n", 0, .pass⟩, ⟨.entityRelationship, "erDiagram\n", 0, .pass⟩]
    ∃ found, Region.ofDocument document = .ok found ∧
      (∀ region ∈ found.records, region.terminated = true) ∧
      (diagrams.map Diagram.kind).Nodup ∧ (∀ diagram ∈ diagrams, diagram.Unmarked) ∧
      let update := ofDiagrams document found.records anchor diagrams
      ∃ found', Region.ofDocument update.text = .ok found' ∧
        ofDiagrams update.text found'.records anchor diagrams =
          ⟨update.text, diagrams.map fun diagram => (diagram.kind, .unchanged)⟩ := by
  intro document anchor diagrams
  have haccepted : (Region.ofDocument document).toOption.any
      (fun found => found.records.all Region.terminated) = true := by decide
  cases hfound : Region.ofDocument document with
  | error findings =>
    rw [hfound] at haccepted
    contradiction
  | ok found =>
    rw [hfound] at haccepted
    have hterminated : ∀ region ∈ found.records, region.terminated = true := by
      simpa [Except.toOption] using haccepted
    have hkinds : (diagrams.map Diagram.kind).Nodup := by decide
    have hunmarked : ∀ diagram ∈ diagrams, diagram.Unmarked := by decide
    obtain ⟨found', hfound', -, -, -, -, -, hagain⟩ :=
      ofDiagrams_settles hfound hterminated anchor diagrams hkinds hunmarked
    exact ⟨found, rfl, hterminated, hkinds, hunmarked, found', hfound', hagain⟩

end DiagramSync.Update
