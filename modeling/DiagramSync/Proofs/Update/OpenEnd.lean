import DiagramSync.Proofs.Update.Settled

/-!
Updates of documents whose last region has no end marker. It is taken to run to the end of the
document, but the place behind its last byte is not inside of it: a region that goes in there
begins inside of the open one, unless that one is given its end first.
-/

namespace DiagramSync.Update

open Text

/-- Before a new region goes in at the end of the document, the region that is open there is
given its end marker: one of the diagrams is its, and the edit for it comes first because it is
about an earlier place or because its diagram does. -/
def ClosesFirst (document : Text) (regions : List Region) (anchor : Kind → Anchor)
    (diagrams : List Diagram) (last : Region) : Prop :=
  ∀ diagram ∈ diagrams, Region.named? regions diagram.kind.name = none →
    newRegionOffset document regions (anchor diagram.kind) = size document →
    ∃ closing ∈ diagrams, closing.kind.name = last.name ∧
      (last.contentRange.start < size document ∨ [closing, diagram].Sublist diagrams)

/-! ### Planned edits and their diagrams -/

section Plans

variable {document : Text} {regions : List Region} {anchor : Kind → Anchor}
  {diagrams : List Diagram}

theorem map_fst_plannedEdits_sublist :
    ((plannedEdits document regions anchor diagrams).map Prod.fst).Sublist diagrams := by
  induction diagrams with
  | nil => exact List.Sublist.refl _
  | cons diagram rest ih =>
    rw [plannedEdits, List.filterMap_cons]
    cases (plan document regions (anchor diagram.kind) diagram).2 with
    | none => exact ih.cons diagram
    | some edit => exact ih.cons_cons diagram

theorem sublist_of_sublist_plannedEdits {first second : Diagram × Edit}
    (h : [first, second].Sublist (plannedEdits document regions anchor diagrams)) :
    [first.1, second.1].Sublist diagrams :=
  (h.map Prod.fst).trans map_fst_plannedEdits_sublist

theorem mem_plannedEdits_of_plan {diagram : Diagram} (hmem : diagram ∈ diagrams)
    {outcome : RegionOutcome} {edit : Edit}
    (h : plan document regions (anchor diagram.kind) diagram = (outcome, some edit)) :
    (diagram, edit) ∈ plannedEdits document regions anchor diagrams :=
  List.mem_filterMap.mpr ⟨diagram, hmem, by simp [h]⟩

theorem cases_of_mem_plannedEdits {pair : Diagram × Edit}
    (h : pair ∈ plannedEdits document regions anchor diagrams) :
    (Region.named? regions pair.1.kind.name = none ∧
      pair.2 = .insert (newRegionOffset document regions (anchor pair.1.kind))
        (regionBlock pair.1.kind.name (codeBlock pair.1.markup))) ∨
    ∃ region, Region.named? regions pair.1.kind.name = some region ∧
      pair.2 = .replace region.contentRange
        (replacement document region (codeBlock pair.1.markup)) := by
  obtain ⟨diagram, -, hedit⟩ := List.mem_filterMap.mp h
  rw [Option.map_eq_some_iff] at hedit
  obtain ⟨edit, hedit, rfl⟩ := hedit
  cases hregion : Region.named? regions diagram.kind.name with
  | none =>
    rw [plan_of_none hregion] at hedit
    exact .inl ⟨rfl, (Option.some.inj hedit).symm⟩
  | some region =>
    cases hholds : holds region (codeBlock diagram.markup) with
    | true => simp [plan_of_holds hregion hholds] at hedit
    | false =>
      rw [plan_of_not_holds hregion hholds] at hedit
      exact .inr ⟨region, rfl, (Option.some.inj hedit).symm⟩

theorem insert_of_mem_plannedEdits {pair : Diagram × Edit}
    (h : pair ∈ plannedEdits document regions anchor diagrams) (hinserts : pair.2.inserts = true) :
    Region.named? regions pair.1.kind.name = none ∧
      pair.2 = .insert (newRegionOffset document regions (anchor pair.1.kind))
        (regionBlock pair.1.kind.name (codeBlock pair.1.markup)) := by
  obtain hinsert | ⟨region, -, hreplace⟩ := cases_of_mem_plannedEdits h
  · exact hinsert
  · rw [hreplace] at hinserts
    contradiction

end Plans

theorem not_sublist_swap {α : Type} {list : List α} (hnodup : list.Nodup) {a b : α}
    (h : [a, b].Sublist list) : ¬ [b, a].Sublist list := by
  induction list with
  | nil => simp at h
  | cons c rest ih =>
    rw [List.nodup_cons] at hnodup
    rw [List.cons_sublist_cons', List.singleton_sublist] at h ⊢
    rintro (hswap | ⟨rfl, ha⟩)
    · obtain h | ⟨rfl, -⟩ := h
      · exact ih hnodup.2 h hswap
      · exact hnodup.1 (hswap.subset (by simp))
    · obtain h | ⟨rfl, hb⟩ := h
      · exact hnodup.1 (h.subset (by simp))
      · exact hnodup.1 ha

/-! ### The open region -/

section Layouts

variable {layout : Layout} {anchor : Kind → Anchor} {diagrams : List Diagram} {last : Region}

theorem eq_nil_of_open {before after : Layout} {name : String} {opener content : Text}
    (hproper : Layout.Proper (before ++ .region name opener content none :: after)) :
    after = [] := by
  obtain ⟨-, -, -, hclosed, -⟩ := Layout.proper_append.mp hproper
  by_contra hne
  exact absurd (hclosed hne).1 (by simp [Stretch.terminated])

theorem exists_open_of_getLast? (hproper : layout.Proper)
    (hlast : (layout.regions 0).getLast? = some last) (hopen : last.terminated = false) :
    ∃ before opener content, layout = before ++ [.region last.name opener content none] ∧
      last = .placed (size (Layout.text before)) last.name opener content none := by
  obtain ⟨before, name, opener, content, closer, after, hlayout, hplaced⟩ :=
    Layout.exists_split_of_mem_regions (List.mem_of_getLast? hlast)
  rw [Nat.zero_add] at hplaced
  obtain rfl : last.name = name := congrArg Region.name hplaced
  have hcloser : closer = none := by
    rw [hplaced] at hopen
    exact Option.not_isSome_iff_eq_none.mp (by simpa [Region.placed] using hopen)
  subst hcloser
  rw [hlayout] at hproper
  obtain rfl := eq_nil_of_open hproper
  exact ⟨before, opener, content, hlayout, hplaced⟩

theorem eq_of_open {before : Layout} {stretch final : Stretch}
    (hproper : Layout.Proper (before ++ [final])) (hmem : stretch ∈ before ++ [final])
    (hopen : stretch.terminated = false) : stretch = final := by
  obtain hmem | hmem := List.mem_append.mp hmem
  · have hclosed := (Layout.proper_append.mp hproper).2.1 (by simp) stretch hmem
    rw [hclosed.1] at hopen
    contradiction
  · exact List.mem_singleton.mp hmem

section Closing

variable (hproper : layout.Proper) (hnodup : layout.names.Nodup)
  (hlast : (layout.regions 0).getLast? = some last) (hopen : last.terminated = false)
  (hkinds : (diagrams.map Diagram.kind).Nodup)
  (hfirst : ClosesFirst layout.text (layout.regions 0) anchor diagrams last)

include hproper hlast hopen hkinds hfirst in
/-- No new region is planned in front of the end that goes to the open one. -/
theorem pairwise_offset_ne_of_closesFirst :
    (plannedEdits layout.text (layout.regions 0) anchor diagrams).Pairwise
      fun first second => first.2.inserts = true → second.2.inserts = false →
        first.2.offset ≠ second.2.offset := by
  obtain ⟨before, opener, content, hlayout, hplaced⟩ :=
    exists_open_of_getLast? hproper hlast hopen
  rw [List.pairwise_iff_forall_sublist]
  intro first second hsublist hinserts hreplaces heq
  have hmem := hsublist.subset List.mem_cons_self
  have hmem' := hsublist.subset (List.mem_cons_of_mem first List.mem_cons_self)
  obtain ⟨hdiagram, hedit⟩ := placed_of_mem_plannedEdits hproper hmem
  obtain ⟨hdiagram', hedit'⟩ := placed_of_mem_plannedEdits hproper hmem'
  obtain ⟨before', opener', hlayout', hend⟩ :=
    hedit.open_of_offset_eq hproper hedit' hinserts hreplaces heq
  obtain ⟨hnone, hinsert⟩ := insert_of_mem_plannedEdits hmem hinserts
  rw [hinsert] at hend
  obtain ⟨closing, hclosing, hname, hcloses⟩ := hfirst first.1 hdiagram hnone hend
  obtain ⟨-, hsame⟩ := List.append_inj' (hlayout.symm.trans hlayout') rfl
  injection hsame with hsame
  injection hsame with hsame _ hcontent
  have hsecond : closing = second.1 :=
    List.inj_on_of_nodup_map hkinds hclosing hdiagram'
      (Kind.name_injective (hname.trans hsame))
  obtain hlt | hbefore := hcloses
  · rw [hplaced, hlayout, hcontent] at hlt
    simp [Region.placed, Stretch.text] at hlt
  · rw [hsecond] at hbefore
    exact not_sublist_swap hkinds.of_map (sublist_of_sublist_plannedEdits hsublist) hbefore

include hproper hnodup hlast hopen hfirst in
theorem exists_closing_of_closesFirst {pair : Diagram × Edit}
    (hmem : pair ∈ plannedEdits layout.text (layout.regions 0) anchor diagrams)
    (hinserts : pair.2.inserts = true) (hend : pair.2.offset = size layout.text)
    {stretch : Stretch} (hstretch : stretch ∈ layout) (hnot : stretch.terminated = false) :
    ∃ other ∈ plannedEdits layout.text (layout.regions 0) anchor diagrams,
      stretch.name? = some other.1.kind.name := by
  obtain ⟨before, opener, content, hlayout, hplaced⟩ :=
    exists_open_of_getLast? hproper hlast hopen
  have hfinal : stretch = .region last.name opener content none := by
    rw [hlayout] at hproper hstretch
    exact eq_of_open hproper hstretch hnot
  obtain ⟨hnone, hinsert⟩ := insert_of_mem_plannedEdits hmem hinserts
  rw [hinsert] at hend
  obtain ⟨closing, hclosing, hname, -⟩ :=
    hfirst pair.1 (placed_of_mem_plannedEdits hproper hmem).1 hnone hend
  have hnamed : Region.named? (layout.regions 0) closing.kind.name = some last := by
    rw [← Layout.map_name_regions 0] at hnodup
    rw [hname]
    exact Region.named?_of_mem hnodup (List.mem_of_getLast? hlast)
  have hholds : holds last (codeBlock closing.markup) = false := by
    simp [holds, hopen]
  exact ⟨_, mem_plannedEdits_of_plan hclosing (plan_of_not_holds hnamed hholds), by
    rw [hfinal, hname]
    rfl⟩

include hproper hnodup hlast hopen hkinds hfirst in
/-- If the open region is closed first, every diagram has its region in the updated document. -/
theorem exists_regions_of_closesFirst (hunmarked : ∀ diagram ∈ diagrams, diagram.Unmarked) :
    ∃ found, Region.ofDocument (ofDiagrams layout.text (layout.regions 0) anchor diagrams).text =
        .ok found ∧
      ∀ diagram ∈ diagrams, ∃ region,
        Region.named? found.records diagram.kind.name = some region ∧
          holds region (codeBlock diagram.markup) = true := by
  obtain ⟨rest, hfits⟩ := exists_fits_inOrder hproper hnodup anchor hkinds
    (pairwise_offset_ne_of_closesFirst hproper hlast hopen hkinds hfirst)
    (fun pair hmem hinserts hend stretch hstretch hnot =>
      exists_closing_of_closesFirst hproper hnodup hlast hopen hfirst hmem hinserts hend
        hstretch hnot)
  exact exists_regions_of_fits hproper hnodup hkinds hfits hunmarked

end Closing

section Nesting

variable (hproper : layout.Proper) (hnodup : layout.names.Nodup)
  (hkinds : (diagrams.map Diagram.kind).Nodup)

include hproper hnodup hkinds in
/-- The edits in front of the first new region at the end of the document fit its layout. -/
theorem exists_fits_of_append {before after : List (Diagram × Edit)}
    (horder : inOrder (plannedEdits layout.text (layout.regions 0) anchor diagrams) =
      before ++ after)
    (hbefore : ∀ pair ∈ before, pair.2.inserts = true → pair.2.offset ≠ size layout.text) :
    ∃ rest, Fits 0 layout before rest := by
  have hplaced : ∀ pair ∈ before, Placed 0 layout pair.1 pair.2 := by
    intro pair hpair
    have hmem : pair ∈ inOrder (plannedEdits layout.text (layout.regions 0) anchor diagrams) := by
      rw [horder]
      exact List.mem_append_left after hpair
    exact (placed_of_mem_plannedEdits hproper (mem_inOrder.mp hmem)).2
  have hkindsOrder := @pairwise_kind_inOrder layout.text (layout.regions 0) anchor _ hkinds
  have hsorted :=
    pairwise_sublist_inOrder (plannedEdits layout.text (layout.regions 0) anchor diagrams)
  rw [horder, List.pairwise_append] at hkindsOrder hsorted
  apply exists_fits hproper hnodup hplaced hkindsOrder.1
  · apply (hsorted.1.and hkindsOrder.1).imp_of_mem
    rintro first second hfirst hsecond ⟨⟨hle, -⟩, hkind⟩
    refine (hplaced first hfirst).precedes hproper (hplaced second hsecond) hkind hle ?_
    intro hinserts hreplaces heq
    obtain ⟨_, _, -, hend⟩ := (hplaced first hfirst).open_of_offset_eq hproper
      (hplaced second hsecond) hinserts hreplaces heq
    exact hbefore first hfirst hinserts hend
  · intro pair hpair hinserts hend
    rw [Nat.zero_add] at hend
    exact absurd hend (hbefore pair hpair hinserts)

/-- An open region takes in the line feeds that set a new one off. -/
theorem exists_marked_separated {name : String} {opener content : Text}
    (hmarked : Stretch.MarkedRegion name opener content none) (written : Text) :
    ∃ opener' content', Stretch.MarkedRegion name opener' content' none ∧
      Whole (opener' ++ content') ∧
      opener' ++ content' = opener ++ content ++ separator (written ++ (opener ++ content)) := by
  have hne : opener ++ content ≠ [] := by simp [hmarked.opener_piece.ne_nil]
  obtain ⟨hwhole, hnone | hfeed⟩ | ⟨hpart, hfeeds⟩ :=
    separator_cases (written ++ (opener ++ content))
  · rw [whole_append_iff hne] at hwhole
    exact ⟨opener, content, hmarked, hwhole, by rw [hnone, List.append_nil]⟩
  · rw [whole_append_iff hne] at hwhole
    refine ⟨opener, content ++ ['\n'], hmarked.append_feed hwhole, ?_, ?_⟩
    · rw [← List.append_assoc]
      exact whole_append_feed _
    · rw [hfeed, List.append_assoc]
  · rw [whole_append_iff hne] at hpart
    obtain ⟨opener', content', hmarked', htext⟩ := hmarked.complete hpart
    have hwhole : Whole (opener' ++ content') := htext ▸ whole_append_feed _
    refine ⟨opener', content' ++ ['\n'], hmarked'.append_feed hwhole, ?_, ?_⟩
    · rw [← List.append_assoc]
      exact whole_append_feed _
    · rw [hfeeds, ← List.append_assoc, htext]
      simp

/-- With a region still open, a new one at the end of the document begins inside of it. -/
theorem ofDocument_error_of_insert {document front : Text} {written kept : Layout} {name : String}
    {opener content : Text}
    (h : Progress document front written (kept ++ [.region name opener content none]))
    (kind : Kind) (block : Text) (edits : List Edit) :
    ∃ findings, Region.ofDocument (carryOut document written.text (size front)
      (.insert (size document) (regionBlock kind.name block) :: edits)) = .error findings := by
  obtain ⟨hkept, hclosed, hmarked, -⟩ := Layout.proper_append.mp h.left_proper
  have hproper : Layout.Proper (written ++ kept) :=
    Layout.proper_append.mpr ⟨h.written_proper, fun _ => h.closed (by simp), hkept⟩
  have hclosed : ∀ stretch ∈ written ++ kept, stretch.Closed := by
    rw [List.forall_mem_append]
    exact ⟨h.closed (by simp), hclosed (by simp)⟩
  obtain ⟨opener', content', hmarked', hwhole, htext⟩ :=
    exists_marked_separated hmarked (Layout.text (written ++ kept))
  have hslice : slice (size front) (size document) document =
      kept.text ++ (opener ++ content) := by
    rw [h.document_eq]
    simpa [Stretch.text] using slice_append front (kept.text ++ (opener ++ content)) []
  rw [carryOut, hslice, if_neg (Nat.lt_irrefl _)]
  obtain ⟨more, hmore⟩ := exists_carryOut_eq_append document
    (written.text ++ (kept.text ++ (opener ++ content)) ++
      separator (written.text ++ (kept.text ++ (opener ++ content))) ++
      regionBlock kind.name block ++ []) (size document) edits
  obtain ⟨findings, hfindings⟩ := Layout.ofDocument_error hproper hclosed hmarked' hwhole
    (isPiece_markerLine .begins kind) (whole_markerLine _ _) (ofPiece?_markerLine .begins kind)
    (block ++ markerLine .ends kind.name ++ more)
  refine ⟨findings, ?_⟩
  rw [hmore, ← hfindings, htext, Layout.text_append]
  simp only [regionBlock, List.append_assoc, List.nil_append]

include hnodup in
/-- The end that goes to the open region is not among edits in front of a new region at the end
of the document, if it does not come first. -/
theorem name_ne_of_not_sublist (hlast : (layout.regions 0).getLast? = some last)
    {before after : List (Diagram × Edit)}
    (horder : inOrder (plannedEdits layout.text (layout.regions 0) anchor diagrams) =
      before ++ after)
    {final : Diagram × Edit} (hfinal : final ∈ after) (hend : final.2.offset = size layout.text)
    (hstart : size layout.text ≤ last.contentRange.start) {pair : Diagram × Edit}
    (hpair : pair ∈ before) (hnot : ¬ [pair.1, final.1].Sublist diagrams) :
    pair.1.kind.name ≠ last.name := by
  intro hname
  have hmem : pair ∈ plannedEdits layout.text (layout.regions 0) anchor diagrams := by
    rw [← mem_inOrder, horder]
    exact List.mem_append_left after hpair
  have hnamed : Region.named? (layout.regions 0) pair.1.kind.name = some last := by
    rw [← Layout.map_name_regions 0] at hnodup
    rw [hname]
    exact Region.named?_of_mem hnodup (List.mem_of_getLast? hlast)
  have hoffset : pair.2.offset = last.contentRange.start := by
    obtain ⟨hnone, -⟩ | ⟨region, hregion, hreplace⟩ := cases_of_mem_plannedEdits hmem
    · rw [hnone] at hnamed
      contradiction
    · rw [hregion, Option.some.injEq] at hnamed
      rw [hreplace, hnamed]
      rfl
  have hsorted :=
    pairwise_sublist_inOrder (plannedEdits layout.text (layout.regions 0) anchor diagrams)
  rw [horder, List.pairwise_append] at hsorted
  obtain ⟨hle, hsublist⟩ := hsorted.2.2 pair hpair final hfinal
  exact hnot (sublist_of_sublist_plannedEdits (hsublist (by omega)))

include hproper hnodup in
/-- If the open region is not closed first, some new region goes in at the end of the document
and neither another one nor the end of the open region is in front of it. -/
theorem exists_first_of_not_closesFirst (hlast : (layout.regions 0).getLast? = some last)
    (hnot : ¬ ClosesFirst layout.text (layout.regions 0) anchor diagrams last) :
    ∃ before first after,
      inOrder (plannedEdits layout.text (layout.regions 0) anchor diagrams) =
        before ++ first :: after ∧
      first.2.inserts = true ∧ first.2.offset = size layout.text ∧
      (∀ pair ∈ before, pair.2.inserts = true → pair.2.offset ≠ size layout.text) ∧
      ∀ pair ∈ before, pair.1.kind.name ≠ last.name := by
  simp only [ClosesFirst, Classical.not_forall] at hnot
  obtain ⟨diagram, hdiagram, hnone, hoffset, hnot⟩ := hnot
  have hmem : (diagram, Edit.insert (size layout.text)
      (regionBlock diagram.kind.name (codeBlock diagram.markup))) ∈
      inOrder (plannedEdits layout.text (layout.regions 0) anchor diagrams) := by
    rw [mem_inOrder, ← hoffset]
    exact mem_plannedEdits_of_plan hdiagram (plan_of_none hnone)
  cases hfind : (inOrder (plannedEdits layout.text (layout.regions 0) anchor diagrams)).find?
      fun pair => pair.2.inserts && pair.2.offset == size layout.text with
  | none =>
    have := List.find?_eq_none.mp hfind _ hmem
    simp [Edit.offset] at this
  | some first =>
    obtain ⟨hend, before, after, horder, hbefore⟩ := List.find?_eq_some_iff_append.mp hfind
    simp only [Bool.and_eq_true, beq_iff_eq] at hend
    replace hbefore : ∀ pair ∈ before, pair.2.inserts = true →
        pair.2.offset ≠ size layout.text := by
      intro pair hpair hinserts
      simpa [hinserts] using hbefore pair hpair
    have hfinal : (diagram, Edit.insert (size layout.text)
        (regionBlock diagram.kind.name (codeBlock diagram.markup))) ∈ first :: after := by
      rw [horder, List.mem_append] at hmem
      exact hmem.resolve_left fun hin => hbefore _ hin rfl rfl
    refine ⟨before, first, after, horder, hend.1, hend.2, hbefore, fun pair hpair hname => ?_⟩
    have hin : pair ∈ inOrder (plannedEdits layout.text (layout.regions 0) anchor diagrams) := by
      rw [horder]
      exact List.mem_append_left _ hpair
    have hdiagram' := (placed_of_mem_plannedEdits hproper (mem_inOrder.mp hin)).1
    refine name_ne_of_not_sublist hnodup hlast horder hfinal rfl ?_ hpair ?_ hname
    · by_contra hlt
      exact hnot ⟨pair.1, hdiagram', hname, .inl (Nat.not_le.mp hlt)⟩
    · intro hsublist
      exact hnot ⟨pair.1, hdiagram', hname, .inr hsublist⟩

include hproper hnodup hkinds in
/-- If a new region goes in behind the open one, the updated document is refused. -/
theorem ofDocument_error_of_not_closesFirst
    (hlast : (layout.regions 0).getLast? = some last) (hopen : last.terminated = false)
    (hunmarked : ∀ diagram ∈ diagrams, diagram.Unmarked)
    (hnot : ¬ ClosesFirst layout.text (layout.regions 0) anchor diagrams last) :
    ∃ findings, Region.ofDocument
      (ofDiagrams layout.text (layout.regions 0) anchor diagrams).text = .error findings := by
  let planned := plannedEdits layout.text (layout.regions 0) anchor diagrams
  obtain ⟨_, opener, content, hlayout, -⟩ := exists_open_of_getLast? hproper hlast hopen
  obtain ⟨before, first, after, horder, hinserts, hend, hbefore, hother⟩ :=
    exists_first_of_not_closesFirst hproper hnodup hlast hnot
  obtain ⟨rest, hfits⟩ := exists_fits_of_append hproper hnodup hkinds horder hbefore
  -- The edits in front of it leave the open region as it is.
  have hopenRest : .region last.name opener content none ∈ rest := by
    apply hfits.mem_rest (by simp [hlayout]) rfl
    intro pair hpair hsame
    exact hother pair hpair (Option.some.inj hsame).symm
  have hunmarked' : ∀ pair ∈ before, pair.1.Unmarked := by
    intro pair hpair
    have hin : pair ∈ inOrder planned := by
      rw [horder]
      exact List.mem_append_left _ hpair
    exact hunmarked _ (placed_of_mem_plannedEdits hproper (mem_inOrder.mp hin)).1
  obtain ⟨front, written, -, -, hprogress, -, -, -, -, hout⟩ :=
    carryOut_fits hfits hunmarked' rfl (Progress.start hproper)
  obtain ⟨kept, tail, rfl⟩ := List.append_of_mem hopenRest
  obtain rfl := eq_nil_of_open hprogress.left_proper
  have hfirst : first ∈ planned := by
    rw [← mem_inOrder, horder]
    exact List.mem_append_right _ List.mem_cons_self
  obtain ⟨-, hinsert⟩ := insert_of_mem_plannedEdits hfirst hinserts
  have hahead : size front ≤ first.2.offset := by
    rw [hend, hprogress.document_eq, size_append]
    exact Nat.le_add_right _ _
  have hcarried := hout ((first :: after).map Prod.snd) (by simpa using hahead)
  rw [hinsert] at hend
  have hplace : newRegionOffset layout.text (layout.regions 0) (anchor first.1.kind) =
      size layout.text := hend
  rw [Layout.text_nil] at hcarried
  rw [text_ofDiagrams, horder, List.map_append, hcarried, List.map_cons, hinsert, hplace]
  exact ofDocument_error_of_insert hprogress first.1.kind _ _

end Nesting

end Layouts

/-! ### Exactly when the update is accepted -/

/-- Where the last region of a document has no end marker, the updated document is accepted and
holds the region of every diagram exactly if the open region is given its end first. -/
theorem settles_iff_closesFirst {document : Text} {found : Findings Region}
    (hfound : Region.ofDocument document = .ok found) {last : Region}
    (hlast : found.records.getLast? = some last) (hopen : last.terminated = false)
    (anchor : Kind → Anchor) (diagrams : List Diagram)
    (hkinds : (diagrams.map Diagram.kind).Nodup)
    (hunmarked : ∀ diagram ∈ diagrams, diagram.Unmarked) :
    (∃ found', Region.ofDocument (ofDiagrams document found.records anchor diagrams).text =
        .ok found' ∧
      ∀ diagram ∈ diagrams, ∃ region,
        Region.named? found'.records diagram.kind.name = some region ∧
          region.terminated = true ∧ region.content = String.ofList (codeBlock diagram.markup)) ↔
      ClosesFirst document found.records anchor diagrams last := by
  obtain ⟨layout, hproper, hnodup, rfl, hrecords⟩ := Region.exists_layout hfound
  rw [hrecords] at hlast ⊢
  constructor
  · rintro ⟨found', hfound', -⟩
    by_contra hnot
    obtain ⟨findings, hfindings⟩ :=
      ofDocument_error_of_not_closesFirst hproper hnodup hkinds hlast hopen hunmarked hnot
    rw [hfindings] at hfound'
    contradiction
  · intro hfirst
    obtain ⟨found', hfound', hregions⟩ := exists_regions_of_closesFirst hproper hnodup hlast hopen
      hkinds hfirst hunmarked
    refine ⟨found', hfound', fun diagram hmem => ?_⟩
    obtain ⟨region, hregion, hholds⟩ := hregions diagram hmem
    simp only [holds, Bool.and_eq_true, beq_iff_eq] at hholds
    exact ⟨region, hregion, hholds.1, by rw [← hholds.2, String.ofList_toList]⟩

/-- The open region is a diagram's, and the other diagram's region goes in behind it. -/
theorem settles_iff_closesFirst_journey :
    let document := "# Shop\n<!-- specgram:begin section=\"journey\" -->\nold\n".toList
    let anchor : Kind → Anchor := fun _ => ⟨"Basket", .endOfSection⟩
    let diagrams : List Diagram :=
      [⟨.journey, "flowchart TD\n", 0, .pass⟩, ⟨.entityRelationship, "erDiagram\n", 0, .pass⟩]
    ∃ found last, Region.ofDocument document = .ok found ∧
      found.records.getLast? = some last ∧ last.terminated = false ∧
      (diagrams.map Diagram.kind).Nodup ∧ (∀ diagram ∈ diagrams, diagram.Unmarked) ∧
      ClosesFirst document found.records anchor diagrams last ∧
      (∃ found', Region.ofDocument (ofDiagrams document found.records anchor diagrams).text =
          .ok found' ∧
        ∀ diagram ∈ diagrams, ∃ region,
          Region.named? found'.records diagram.kind.name = some region ∧
            region.terminated = true ∧
            region.content = String.ofList (codeBlock diagram.markup)) := by
  intro document anchor diagrams
  have haccepted : (Region.ofDocument document).toOption.bind
      (fun found => found.records.getLast?.map fun last =>
        (last.terminated, last.name, decide (last.contentRange.start < size document))) =
      some (false, "journey", true) := by decide
  cases hfound : Region.ofDocument document with
  | error findings =>
    rw [hfound] at haccepted
    contradiction
  | ok found =>
    rw [hfound] at haccepted
    cases hlast : found.records.getLast? with
    | none => simp [Except.toOption, hlast] at haccepted
    | some last =>
      have hopen : last.terminated = false ∧ last.name = "journey" ∧
          last.contentRange.start < size document := by
        simpa [Except.toOption, hlast] using haccepted
      have hkinds : (diagrams.map Diagram.kind).Nodup := by decide
      have hunmarked : ∀ diagram ∈ diagrams, diagram.Unmarked := by decide
      have hfirst : ClosesFirst document found.records anchor diagrams last := by
        intro diagram _ _ _
        exact ⟨⟨.journey, "flowchart TD\n", 0, .pass⟩, by simp [diagrams], hopen.2.1.symm,
          .inl hopen.2.2⟩
      exact ⟨found, last, rfl, hlast, hopen.1, hkinds, hunmarked, hfirst,
        (settles_iff_closesFirst hfound hlast hopen.1 anchor diagrams hkinds hunmarked).mpr
          hfirst⟩

/-- The open region is no diagram's. The new one begins inside of it, and the updated document
is refused. -/
theorem not_accepted_behind_open_region :
    let document := "<!-- specgram:begin section=\"x\" -->\nfoo\n".toList
    let diagrams : List Diagram := [⟨.journey, "flowchart TD\n", 0, .pass⟩]
    (diagrams.map Diagram.kind).Nodup ∧ (∀ diagram ∈ diagrams, diagram.Unmarked) ∧
      ∃ found last, Region.ofDocument document = .ok found ∧
        found.records.getLast? = some last ∧ last.terminated = false ∧
        ¬ ∃ found', Region.ofDocument
          (ofDiagrams document found.records Config.standard.anchor diagrams).text =
            .ok found' := by
  intro document diagrams
  have haccepted : (Region.ofDocument document).toOption.bind
      (fun found => found.records.getLast?.map fun last =>
        (last.terminated, (Region.ofDocument
          (ofDiagrams document found.records Config.standard.anchor diagrams).text).isOk)) =
      some (false, false) := by decide +kernel
  refine ⟨by decide, by decide, ?_⟩
  cases hfound : Region.ofDocument document with
  | error findings =>
    rw [hfound] at haccepted
    contradiction
  | ok found =>
    rw [hfound] at haccepted
    cases hlast : found.records.getLast? with
    | none => simp [Except.toOption, hlast] at haccepted
    | some last =>
      have hrefused : last.terminated = false ∧ (Region.ofDocument
          (ofDiagrams document found.records Config.standard.anchor diagrams).text).isOk =
            false := by
        simpa [Except.toOption, hlast] using haccepted
      refine ⟨found, last, rfl, hlast, hrefused.1, ?_⟩
      rintro ⟨found', hfound'⟩
      rw [hfound'] at hrefused
      exact absurd hrefused.2 (by simp [Except.isOk, Except.toBool])

end DiagramSync.Update
