import DiagramSync.Proofs.Update.Patch
import DiagramSync.Proofs.Update.Place

/-!
The order in which planned edits are carried out. Two edits for different diagrams never
overlap, and the sort by place is stable, so each edit begins where the one before it has
ended or later.
-/

namespace DiagramSync

open Text

/-! ### Stable sorting -/

section Sorting

variable {α : Type} {le : α → α → Bool} (htrans : ∀ a b c, le a b → le b c → le a c)
  (htotal : ∀ a b, le a b || le b a)

include htrans htotal in
/-- The sort puts an element in front of the first one that may come behind it. -/
theorem exists_mergeSort_cons (a : α) (rest : List α) :
    ∃ before after, (a :: rest).mergeSort le = before ++ a :: after ∧
      rest.mergeSort le = before ++ after ∧ (∀ b ∈ before, le a b = false) ∧
      ∀ b ∈ after, le a b = true := by
  obtain ⟨before, after, hsorted, hrest, hbefore⟩ := List.mergeSort_cons htrans htotal a rest
  have hall := List.pairwise_mergeSort htrans htotal (a :: rest)
  rw [hsorted, List.pairwise_append, List.pairwise_cons] at hall
  exact ⟨before, after, hsorted, hrest, by simpa using hbefore, hall.2.1.1⟩

include htrans htotal in
/-- What holds of two elements of a list in the order in which the sort leaves them holds of
every two elements of the sorted list. -/
theorem pairwise_mergeSort_of {r : α → α → Prop} {list : List α}
    (h : list.Pairwise fun a b => (le a b → r a b) ∧ (¬ le a b → r b a)) :
    (list.mergeSort le).Pairwise r := by
  induction list with
  | nil => simp
  | cons a rest ih =>
    rw [List.pairwise_cons] at h
    obtain ⟨before, after, hsorted, hrest, hbefore, hafter⟩ :=
      exists_mergeSort_cons htrans htotal a rest
    have hmem : ∀ b, b ∈ before ∨ b ∈ after → b ∈ rest := by
      intro b hb
      have hsorted : b ∈ rest.mergeSort le := by rwa [hrest, List.mem_append]
      exact List.mem_mergeSort.mp hsorted
    have hpairs := ih h.2
    rw [hrest, List.pairwise_append] at hpairs
    rw [hsorted, List.pairwise_append, List.pairwise_cons]
    refine ⟨hpairs.1, ⟨fun b hb => ?_, hpairs.2.1⟩, fun b hb c hc => ?_⟩
    · exact (h.1 b (hmem b (.inr hb))).1 (hafter b hb)
    · obtain rfl | hc := List.mem_cons.mp hc
      · exact (h.1 b (hmem b (.inl hb))).2 (by simp [hbefore b hb])
      · exact hpairs.2.2 b hb c hc

/-- Two lists with the same elements in the same order are cut at the same place. -/
theorem append_inj_of_split {keep : α → Bool} {a b a' b' : List α} (happend : a ++ b = a' ++ b')
    (ha : ∀ x ∈ a, keep x = false) (hb : ∀ x ∈ b, keep x = true)
    (ha' : ∀ x ∈ a', keep x = false) (hb' : ∀ x ∈ b', keep x = true) : a = a' ∧ b = b' := by
  obtain ⟨middle, rfl, rfl⟩ | ⟨middle, rfl, rfl⟩ := List.append_eq_append_iff.mp happend
  all_goals
    cases middle with
    | nil => simp
    | cons x rest =>
      have hfalse : keep x = false := by simp_all
      have htrue : keep x = true := by simp_all
      rw [hfalse] at htrue
      contradiction

include htrans htotal in
theorem filter_mergeSort (keep : α → Bool) (list : List α) :
    (list.mergeSort le).filter keep = (list.filter keep).mergeSort le := by
  induction list with
  | nil => simp
  | cons a rest ih =>
    obtain ⟨before, after, hsorted, hrest, hbefore, hafter⟩ :=
      exists_mergeSort_cons htrans htotal a rest
    rw [hrest, List.filter_append] at ih
    rw [hsorted, List.filter_append]
    by_cases ha : keep a = true
    · obtain ⟨before', after', hsorted', hrest', hbefore', hafter'⟩ :=
        exists_mergeSort_cons htrans htotal a (rest.filter keep)
      obtain ⟨hsame, hsame'⟩ := append_inj_of_split (ih.trans hrest')
        (fun b hb => hbefore b (List.mem_of_mem_filter hb))
        (fun b hb => hafter b (List.mem_of_mem_filter hb)) hbefore' hafter'
      rw [List.filter_cons_of_pos ha, List.filter_cons_of_pos ha, hsorted', hsame, hsame']
    · rw [List.filter_cons_of_neg ha, List.filter_cons_of_neg ha, ih]

end Sorting

namespace Update

/-! ### Planned edits -/

section Plans

variable {document : Text} {regions : List Region} {anchor : Anchor} {diagram : Diagram}

theorem plan_of_none (h : Region.named? regions diagram.kind.name = none) :
    plan document regions anchor diagram = (.inserted, some (.insert
      (newRegionOffset document regions anchor)
      (regionBlock diagram.kind.name (codeBlock diagram.markup)))) := by
  simp [plan, h]

theorem plan_of_holds {region : Region}
    (h : Region.named? regions diagram.kind.name = some region)
    (hholds : holds region (codeBlock diagram.markup) = true) :
    plan document regions anchor diagram = (.unchanged, none) := by
  simp [plan, h, hholds]

theorem plan_of_not_holds {region : Region}
    (h : Region.named? regions diagram.kind.name = some region)
    (hholds : holds region (codeBlock diagram.markup) = false) :
    plan document regions anchor diagram = (.replaced, some (.replace region.contentRange
      (replacement document region (codeBlock diagram.markup)))) := by
  simp [plan, h, hholds]

theorem plan_unchanged_iff :
    (plan document regions anchor diagram).1 = .unchanged ↔
      ∃ region, Region.named? regions diagram.kind.name = some region ∧
        region.terminated = true ∧ region.content.toList = codeBlock diagram.markup := by
  cases hnamed : Region.named? regions diagram.kind.name with
  | none => simp [plan_of_none hnamed]
  | some region =>
    have hiff : holds region (codeBlock diagram.markup) = true ↔
        region.terminated = true ∧ region.content.toList = codeBlock diagram.markup := by
      rw [holds, Bool.and_eq_true, beq_iff_eq]
    cases hholds : holds region (codeBlock diagram.markup) with
    | true => simpa [plan_of_holds hnamed hholds] using hiff.mp hholds
    | false => simpa [plan_of_not_holds hnamed hholds, hholds] using hiff

end Plans

/-- The edits for the diagrams that need one, each with its diagram. -/
def plannedEdits (document : Text) (regions : List Region) (anchor : Kind → Anchor)
    (diagrams : List Diagram) : List (Diagram × Edit) :=
  diagrams.filterMap fun diagram =>
    (plan document regions (anchor diagram.kind) diagram).2.map fun edit => (diagram, edit)

/-- Planned edits in the order in which they are carried out. -/
def inOrder (planned : List (Diagram × Edit)) : List (Diagram × Edit) :=
  planned.mergeSort fun first second => first.2.offset ≤ second.2.offset

theorem map_snd_plannedEdits (document : Text) (regions : List Region) (anchor : Kind → Anchor)
    (diagrams : List Diagram) :
    (plannedEdits document regions anchor diagrams).map Prod.snd =
      diagrams.filterMap fun diagram =>
        (plan document regions (anchor diagram.kind) diagram).2 := by
  simp only [plannedEdits, List.map_filterMap, Option.map_map]
  congr 1
  funext diagram
  simp [Function.comp_def]

theorem mergeSort_map_snd (planned : List (Diagram × Edit)) :
    (planned.map Prod.snd).mergeSort (fun first second => first.offset ≤ second.offset) =
      (inOrder planned).map Prod.snd := by
  rw [inOrder, List.map_mergeSort]
  simp

theorem text_ofDiagrams (document : Text) (regions : List Region) (anchor : Kind → Anchor)
    (diagrams : List Diagram) :
    (ofDiagrams document regions anchor diagrams).text =
      carryOut document [] 0
        ((inOrder (plannedEdits document regions anchor diagrams)).map Prod.snd) := by
  rw [← mergeSort_map_snd, map_snd_plannedEdits]
  simp [ofDiagrams, apply, List.filterMap_map, Function.comp_def]

theorem mem_inOrder {planned : List (Diagram × Edit)} {pair : Diagram × Edit} :
    pair ∈ inOrder planned ↔ pair ∈ planned :=
  List.mem_mergeSort

theorem offset_trans (a b c : Diagram × Edit) (hab : decide (a.2.offset ≤ b.2.offset) = true)
    (hbc : decide (b.2.offset ≤ c.2.offset) = true) :
    decide (a.2.offset ≤ c.2.offset) = true := by
  simp only [decide_eq_true_eq] at hab hbc ⊢
  omega

theorem offset_total (a b : Diagram × Edit) :
    (decide (a.2.offset ≤ b.2.offset) || decide (b.2.offset ≤ a.2.offset)) = true := by
  simp only [Bool.or_eq_true, decide_eq_true_eq]
  omega

theorem pairwise_inOrder_of {r : Diagram × Edit → Diagram × Edit → Prop}
    {planned : List (Diagram × Edit)}
    (h : planned.Pairwise fun a b => (a.2.offset ≤ b.2.offset → r a b) ∧
      (b.2.offset < a.2.offset → r b a)) :
    (inOrder planned).Pairwise r :=
  pairwise_mergeSort_of offset_trans offset_total (by simpa using h)

theorem pairwise_sublist_inOrder (planned : List (Diagram × Edit)) :
    (inOrder planned).Pairwise fun first second => first.2.offset ≤ second.2.offset ∧
      (first.2.offset = second.2.offset → [first, second].Sublist planned) := by
  apply pairwise_inOrder_of
  rw [List.pairwise_iff_forall_sublist]
  intro first second hsublist
  refine ⟨fun hle => ⟨hle, fun _ => hsublist⟩, fun hlt => ⟨Nat.le_of_lt hlt, fun heq => ?_⟩⟩
  exact absurd heq (Nat.ne_of_lt hlt)

/-- What is in front of a place is carried out before the rest. -/
theorem inOrder_split (offset : Nat) (planned : List (Diagram × Edit)) :
    inOrder planned = inOrder (planned.filter fun pair => pair.2.offset < offset) ++
      inOrder (planned.filter fun pair => ¬ pair.2.offset < offset) := by
  have hsplit : ∀ sorted : List (Diagram × Edit),
      sorted.Pairwise (fun first second => first.2.offset ≤ second.2.offset) →
      sorted = (sorted.filter fun pair => pair.2.offset < offset) ++
        sorted.filter fun pair => ¬ pair.2.offset < offset := by
    intro sorted hsorted
    induction sorted with
    | nil => rfl
    | cons pair rest ih =>
      rw [List.pairwise_cons] at hsorted
      by_cases hlt : pair.2.offset < offset
      · simp only [List.filter_cons, hlt, decide_true, not_true_eq_false, decide_false, if_true,
          Bool.false_eq_true, if_false, List.cons_append]
        exact congrArg _ (ih hsorted.2)
      · have hall : ∀ other ∈ pair :: rest, ¬ other.2.offset < offset := by
          rw [List.forall_mem_cons]
          refine ⟨hlt, fun other hother => ?_⟩
          have := hsorted.1 other hother
          omega
        rw [List.filter_eq_nil_iff.mpr (by simpa using hall),
          List.filter_eq_self.mpr (by simpa using hall), List.nil_append]
  have hsorted := hsplit (inOrder planned) ((pairwise_sublist_inOrder planned).imp And.left)
  unfold inOrder at hsorted ⊢
  rwa [filter_mergeSort offset_trans offset_total,
    filter_mergeSort offset_trans offset_total] at hsorted

section Layouts

variable {layout : Layout} {start : Nat}

/-- The edits of different diagrams do not overlap. -/
theorem Placed.stop_le_offset (hproper : layout.Proper) {first second : Diagram}
    {edit edit' : Edit} (h : Placed start layout first edit) (h' : Placed start layout second edit')
    (hkind : first.kind ≠ second.kind) (hle : edit.offset ≤ edit'.offset) :
    edit.stop ≤ edit'.offset := by
  cases h with
  | inserted before after hlayout hname => exact hle
  | replaced before after opener content closer hlayout =>
    have hmarked : Stretch.MarkedRegion first.kind.name opener content closer :=
      hproper.marked (.region _ opener content closer) (by simp [hlayout])
    have hopener : size opener ≠ 0 := by simpa using hmarked.opener_piece.ne_nil
    cases h' with
    | inserted before' after' hlayout' hname =>
      obtain ⟨middle, rfl, -⟩ | ⟨middle, rfl, -⟩ := Layout.split_at (hlayout'.symm.trans hlayout)
      · simp only [Edit.offset, Layout.text_append, size_append] at hle
        omega
      · simp only [Edit.offset, Edit.stop, Layout.text_append, Layout.text_cons, Stretch.text,
          size_append]
        omega
    | replaced before' after' opener' content' closer' hlayout' =>
      obtain ⟨-, hsame, -⟩ | ⟨middle, rfl, -⟩ | ⟨middle, rfl, -⟩ :=
        Layout.split_cases (hlayout.symm.trans hlayout')
      · have hname : first.kind.name = second.kind.name := by
          injection hsame
        exact absurd (Kind.name_injective hname) hkind
      · simp only [Edit.offset, Edit.stop, Layout.text_append, Layout.text_cons, Stretch.text,
          size_append]
        omega
      · simp only [Edit.offset, Layout.text_append, Layout.text_cons, Stretch.text,
          size_append] at hle
        omega

theorem Placed.within {diagram : Diagram} {edit : Edit} (h : Placed 0 layout diagram edit) :
    edit.Within layout.text := by
  cases h with
  | inserted before after hlayout hname =>
    exact ⟨before.text, [], after.text, by simp [hlayout], by simp [Edit.offset],
      by simp [Edit.stop]⟩
  | replaced before after opener content closer hlayout =>
    refine ⟨before.text ++ opener, content, closer.getD [] ++ after.text, ?_, ?_, ?_⟩
    · simp [hlayout, Stretch.text]
    · simp [Edit.offset]
    · simp [Edit.stop]

theorem placed_of_mem_plannedEdits (hproper : layout.Proper) {anchor : Kind → Anchor}
    {diagrams : List Diagram} {pair : Diagram × Edit}
    (h : pair ∈ plannedEdits layout.text (layout.regions 0) anchor diagrams) :
    pair.1 ∈ diagrams ∧ Placed 0 layout pair.1 pair.2 := by
  obtain ⟨diagram, edit⟩ := pair
  simp only [plannedEdits, List.mem_filterMap, Option.map_eq_some_iff, Prod.mk.injEq] at h
  obtain ⟨diagram, hmem, edit, hedit, rfl, rfl⟩ := h
  refine ⟨hmem, ?_⟩
  obtain ⟨hplan, -⟩ | ⟨other, hplan, hplaced⟩ | ⟨other, hplan, hplaced⟩ :=
    plan_cases hproper (anchor diagram.kind) diagram
  · simp [hplan] at hedit
  · obtain rfl : other = edit := by simpa [hplan] using hedit
    exact hplaced
  · obtain rfl : other = edit := by simpa [hplan] using hedit
    exact hplaced

theorem pairwise_kind_plannedEdits {document : Text} {regions : List Region}
    {anchor : Kind → Anchor} {diagrams : List Diagram}
    (hkinds : (diagrams.map Diagram.kind).Nodup) :
    (plannedEdits document regions anchor diagrams).Pairwise
      fun first second => first.1.kind ≠ second.1.kind := by
  rw [List.Nodup, List.pairwise_map] at hkinds
  rw [plannedEdits, List.pairwise_filterMap]
  apply hkinds.imp
  rintro first second hne ⟨_, _⟩ hfirst ⟨_, _⟩ hsecond
  simp only [Option.map_eq_some_iff, Prod.mk.injEq] at hfirst hsecond
  obtain ⟨_, -, rfl, -⟩ := hfirst
  obtain ⟨_, -, rfl, -⟩ := hsecond
  exact hne

/-- In the order in which they are carried out, no edit reaches behind where the next begins. -/
theorem pairwise_stop_le_offset (hproper : layout.Proper) (anchor : Kind → Anchor)
    {diagrams : List Diagram} (hkinds : (diagrams.map Diagram.kind).Nodup) :
    ((inOrder (plannedEdits layout.text (layout.regions 0) anchor diagrams)).map
      Prod.snd).Pairwise fun first second => first.stop ≤ second.offset := by
  rw [List.pairwise_map]
  apply pairwise_inOrder_of
  apply (pairwise_kind_plannedEdits hkinds).imp_of_mem
  intro first second hfirst hsecond hne
  have hplaced := (placed_of_mem_plannedEdits hproper hfirst).2
  have hplaced' := (placed_of_mem_plannedEdits hproper hsecond).2
  exact ⟨hplaced.stop_le_offset hproper hplaced' hne,
    fun hlt => hplaced'.stop_le_offset hproper hplaced (Ne.symm hne) (Nat.le_of_lt hlt)⟩

end Layouts

end Update
end DiagramSync
