import DiagramSync.Proofs.Update.Order
import Mathlib.Data.List.Perm.Basic

/-!
An update changes nothing but what it has to: the content of regions that are out of date,
and the places where new regions go in.
-/

namespace DiagramSync.Update

open Text

/-- What becomes of a diagram's region, and the patch of the document that this takes. -/
inductive Change (document : Text) (regions : List Region) (anchor : Anchor) (diagram : Diagram) :
    RegionOutcome → Option Patch → Prop where
  | unchanged (region : Region) :
      Region.named? regions diagram.kind.name = some region →
      holds region (codeBlock diagram.markup) = true →
      Change document regions anchor diagram .unchanged none
  /-- A line feed goes in front where the begin marker has none, and an end marker behind where
  there is none. -/
  | replaced (region : Region) :
      Region.named? regions diagram.kind.name = some region →
      holds region (codeBlock diagram.markup) = false →
      Change document regions anchor diagram .replaced
        (some ⟨region.contentRange.start,
          slice region.contentRange.start region.contentRange.stop document,
          (if endsWith ['\n'] (takeBytes region.contentRange.start document) then [] else ['\n']) ++
            codeBlock diagram.markup ++
            (if region.terminated then [] else markerLine .ends region.name)⟩)
  /-- At most two line feeds go in front, and one behind except at the document's end. -/
  | inserted (feeds : Nat) :
      Region.named? regions diagram.kind.name = none → feeds ≤ 2 →
      Change document regions anchor diagram .inserted
        (some ⟨newRegionOffset document regions anchor, [],
          List.replicate feeds '\n' ++
            (markerLine .begins diagram.kind.name ++ codeBlock diagram.markup ++
              markerLine .ends diagram.kind.name) ++
            (if newRegionOffset document regions anchor < size document then ['\n'] else [])⟩)

/-- The edits that are handed over to be carried out. -/
def edits (document : Text) (regions : List Region) (anchor : Kind → Anchor)
    (diagrams : List Diagram) : List Edit :=
  diagrams.filterMap fun diagram => (plan document regions (anchor diagram.kind) diagram).2

section Changes

variable {document : Text} {regions : List Region}

theorem change_of_plan_none {anchor : Anchor} {diagram : Diagram} {outcome : RegionOutcome}
    (h : plan document regions anchor diagram = (outcome, none)) :
    Change document regions anchor diagram outcome none := by
  simp only [plan] at h
  split at h
  · rename_i region hregion
    split at h
    · rename_i hholds
      cases h
      exact .unchanged region hregion hholds
    · simp at h
  · simp at h

theorem change_of_plan_some {anchor : Anchor} {diagram : Diagram} {outcome : RegionOutcome}
    {edit : Edit} {patch : Patch}
    (h : plan document regions anchor diagram = (outcome, some edit))
    (hbrings : edit.Brings document patch) :
    Change document regions anchor diagram outcome (some patch) := by
  simp only [plan] at h
  split at h
  · rename_i region hregion
    split at h
    · simp at h
    · rename_i hholds
      cases h
      cases hbrings
      exact .replaced region hregion (by simpa using hholds)
  · rename_i hnone
    cases h
    cases hbrings with
    | insert _ _ feeds hfeeds => exact .inserted feeds hnone hfeeds

/-- The changes, diagram by diagram, that go with the patches of the planned edits. -/
theorem exists_changes {anchor : Kind → Anchor} {diagrams : List Diagram} {patches : List Patch}
    (h : List.Forall₂ (fun pair patch => Edit.Brings document pair.2 patch)
      (plannedEdits document regions anchor diagrams) patches) :
    ∃ changes : List (RegionOutcome × Option Patch),
      List.Forall₂ (fun diagram change =>
        Change document regions (anchor diagram.kind) diagram change.1 change.2)
        diagrams changes ∧
      (ofDiagrams document regions anchor diagrams).outcomes =
        List.zipWith (fun diagram change => (diagram.kind, change.1)) diagrams changes ∧
      changes.filterMap Prod.snd = patches := by
  induction diagrams generalizing patches with
  | nil =>
    cases h
    exact ⟨[], .nil, rfl, rfl⟩
  | cons diagram rest ih =>
    rw [plannedEdits, List.filterMap_cons] at h
    cases hplan : plan document regions (anchor diagram.kind) diagram with
    | mk outcome edit? =>
      cases edit? with
      | none =>
        simp only [hplan, Option.map_none] at h
        obtain ⟨changes, hchanges, houtcomes, hpatches⟩ := ih h
        refine ⟨(outcome, none) :: changes, .cons (change_of_plan_none hplan) hchanges, ?_, ?_⟩
        · simp only [ofDiagrams, List.map_cons, hplan, List.zipWith_cons_cons] at houtcomes ⊢
          rw [houtcomes]
        · simpa using hpatches
      | some edit =>
        simp only [hplan, Option.map_some] at h
        cases h with
        | cons hbrings hothers =>
          obtain ⟨changes, hchanges, houtcomes, hpatches⟩ := ih hothers
          refine ⟨(outcome, some _) :: changes,
            .cons (change_of_plan_some hplan hbrings) hchanges, ?_, ?_⟩
          · simp only [ofDiagrams, List.map_cons, hplan, List.zipWith_cons_cons] at houtcomes ⊢
            rw [houtcomes]
          · simpa using hpatches

end Changes

/-! ### What is left alone -/

/-- The patch keeps away from the region and its markers, or it is a new content of the region,
which has one of the names. -/
def Spares (names : List String) (region : Region) (patch : Patch) : Prop :=
  patch.offset + size patch.old ≤ region.range.start ∨
    region.range.stop ≤ patch.offset ∨
    (patch.offset = region.contentRange.start ∧
      patch.offset + size patch.old = region.contentRange.stop ∧ region.name ∈ names)

theorem span_of_brings {document : Text} {edit : Edit} {patch : Patch}
    (hwithin : edit.Within document) (hbrings : edit.Brings document patch) :
    patch.offset = edit.offset ∧ patch.offset + size patch.old = edit.stop := by
  cases hbrings with
  | replace range text =>
    obtain ⟨before, old, after, rfl, hoffset, hstop⟩ := hwithin
    obtain ⟨start, stop⟩ := range
    obtain ⟨rfl, rfl⟩ : start = size before ∧ stop = size before + size old := ⟨hoffset, hstop⟩
    rw [slice_append]
    exact ⟨rfl, rfl⟩
  | insert offset block feeds hfeeds => exact ⟨rfl, rfl⟩

/-- An edit keeps away from every region, unless it replaces the content of the diagram's own. -/
theorem Placed.apart {layout : Layout} {diagram : Diagram} {edit : Edit}
    (h : Placed 0 layout diagram edit) {region : Region} (hregion : region ∈ layout.regions 0) :
    edit.stop ≤ region.range.start ∨ region.range.stop ≤ edit.offset ∨
      (edit.offset = region.contentRange.start ∧ edit.stop = region.contentRange.stop ∧
        region.name = diagram.kind.name) := by
  obtain ⟨before, name, opener, content, closer, after, hlayout, rfl⟩ :=
    Layout.exists_split_of_mem_regions hregion
  cases h with
  | inserted before' after' hlayout' hname =>
    obtain ⟨middle, rfl, -⟩ | ⟨middle, rfl, -⟩ := Layout.split_at (hlayout'.symm.trans hlayout)
    · left
      simp [Edit.stop, Region.placed]
    · right; left
      simp [Edit.offset, Region.placed, Nat.add_assoc]
  | replaced before' after' opener' content' closer' hlayout' =>
    obtain ⟨rfl, hsame, -⟩ | ⟨middle, rfl, -⟩ | ⟨middle, rfl, -⟩ :=
      Layout.split_cases (hlayout.symm.trans hlayout')
    · right; right
      cases hsame
      exact ⟨rfl, rfl, rfl⟩
    · right; left
      simp only [Edit.offset, Region.placed, Layout.text_append, Layout.text_cons, size_append]
      omega
    · left
      simp only [Edit.stop, Region.placed, Layout.text_append, Layout.text_cons, Stretch.text,
        size_append]
      omega

theorem exists_of_forall₂ {α β : Type} {r : α → β → Prop} {as : List α} {bs : List β}
    (h : List.Forall₂ r as bs) {b : β} (hb : b ∈ bs) : ∃ a ∈ as, r a b := by
  induction h with
  | nil => simp at hb
  | cons hfirst _ ih =>
    obtain rfl | hb := List.mem_cons.mp hb
    · exact ⟨_, List.mem_cons_self, hfirst⟩
    · obtain ⟨a, ha, hr⟩ := ih hb
      exact ⟨a, List.mem_cons_of_mem _ ha, hr⟩

/-- An update of an accepted document is the document with one patch for each diagram whose
region is out of date or missing. Every cut of the document that this takes can be made, and no
patch touches a marker or the content of another region. -/
theorem ofDiagrams_patches {document : Text} {found : Findings Region}
    (hfound : Region.ofDocument document = .ok found) (anchor : Kind → Anchor)
    (diagrams : List Diagram) (hkinds : (diagrams.map Diagram.kind).Nodup) :
    let update := ofDiagrams document found.records anchor diagrams
    perform? document (edits document found.records anchor diagrams) = some update.text ∧
    ∃ changes : List (RegionOutcome × Option Patch), ∃ patches,
      List.Forall₂ (fun diagram change =>
        Change document found.records (anchor diagram.kind) diagram change.1 change.2)
        diagrams changes ∧
      update.outcomes = List.zipWith (fun diagram change => (diagram.kind, change.1))
        diagrams changes ∧
      (changes.filterMap Prod.snd).Perm patches ∧
      Patched 0 patches document update.text ∧
      ∀ patch ∈ patches, ∀ region ∈ found.records,
        Spares (diagrams.map fun diagram => diagram.kind.name) region patch := by
  obtain ⟨layout, hproper, -, rfl, hrecords⟩ := Region.exists_layout hfound
  rw [hrecords]
  intro update
  let planned := plannedEdits layout.text (layout.regions 0) anchor diagrams
  have hplaced : ∀ pair ∈ inOrder planned, pair.1 ∈ diagrams ∧ Placed 0 layout pair.1 pair.2 :=
    fun pair hpair => placed_of_mem_plannedEdits hproper (mem_inOrder.mp hpair)
  have hwithin : ∀ edit ∈ (inOrder planned).map Prod.snd, edit.Within layout.text := by
    simp only [List.forall_mem_map]
    exact fun pair hpair => (hplaced pair hpair).2.within
  obtain ⟨patches, new, hbrings, hpatched, hout, hout?⟩ :=
    carryOut_patched layout.text ((inOrder planned).map Prod.snd) [] layout.text [] rfl hwithin
      (pairwise_stop_le_offset hproper anchor hkinds) (fun _ _ => Nat.zero_le _)
  have htext : update.text = new := by
    rw [← List.nil_append new, ← hout]
    exact text_ofDiagrams layout.text (layout.regions 0) anchor diagrams
  rw [List.forall₂_map_left_iff] at hbrings
  obtain ⟨plannedPatches, hplannedPatches, hperm⟩ :=
    List.perm_comp_forall₂ (List.mergeSort_perm planned _).symm hbrings
  obtain ⟨changes, hchanges, houtcomes, rfl⟩ := exists_changes hplannedPatches
  refine ⟨?_, changes, patches, hchanges, houtcomes, hperm, htext ▸ hpatched, ?_⟩
  · rw [perform?, edits, ← map_snd_plannedEdits, mergeSort_map_snd, htext]
    exact hout?
  · intro patch hpatch region hregion
    obtain ⟨pair, hpair, hpatch⟩ := exists_of_forall₂ hbrings hpatch
    obtain ⟨hmem, hpair'⟩ := hplaced pair hpair
    obtain ⟨hoffset, hstop⟩ := span_of_brings hpair'.within hpatch
    rw [Spares, hstop, hoffset]
    refine (hpair'.apart hregion).imp id (Or.imp id ?_)
    rintro ⟨hstart, hend, hname⟩
    exact ⟨hstart, hend, List.mem_map.mpr ⟨pair.1, hmem, hname.symm⟩⟩

/-- In a document whose last region has no end marker, that region is given one, and the other
diagram's region goes in behind the heading. -/
theorem ofDiagrams_patches_unterminated :
    let document := "# Shop\n<!-- specgram:begin section=\"journey\" -->\nold".toList
    let anchor : Kind → Anchor := fun _ => ⟨"shop", .afterHeading⟩
    let diagrams : List Diagram :=
      [⟨.journey, "flowchart TD\n", 0, .pass⟩, ⟨.entityRelationship, "erDiagram\n", 0, .pass⟩]
    ∃ found, Region.ofDocument document = .ok found ∧ (diagrams.map Diagram.kind).Nodup ∧
      ∃ patches, Patched 0 patches document
          (ofDiagrams document found.records anchor diagrams).text ∧
        ∀ patch ∈ patches, ∀ region ∈ found.records,
          Spares ["journey", "entity-relationship"] region patch := by
  intro document anchor diagrams
  have haccepted : (Region.ofDocument document).isOk = true := by decide
  cases hfound : Region.ofDocument document with
  | error findings =>
    rw [hfound] at haccepted
    contradiction
  | ok found =>
    have hkinds : (diagrams.map Diagram.kind).Nodup := by decide
    obtain ⟨-, changes, patches, -, -, -, hpatched, hspares⟩ :=
      ofDiagrams_patches hfound anchor diagrams hkinds
    exact ⟨found, rfl, hkinds, patches, hpatched, hspares⟩

end DiagramSync.Update
