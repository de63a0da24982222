import DiagramSync.Proofs.Region.Slot
import DiagramSync.Proofs.Update.Relayout

/-!
Updates that give the region of a slot its content. Nothing of what stood there comes through: the
other edits are the same for every content, but for a shift of those that are behind it.
-/

namespace DiagramSync

open Text

namespace Update

/-! ### The place of a new region -/

/-- The place that the anchor asks for, given the headings that count. -/
def askedFor (documentSize : Nat) (anchor : Anchor) (headings : List PlacedHeading) : Nat :=
  match anchored? anchor headings with
  | some (heading, rest) =>
    match anchor.placement with
    | .afterHeading => heading.line.stop
    | .endOfSection => sectionEnd documentSize heading.heading.level rest
  | none => documentSize

theorem anchorOffset_eq (document : Text) (regions : List Region) (anchor : Anchor) :
    anchorOffset document regions anchor =
      askedFor (size document) anchor (freeHeadings document regions) := rfl

theorem anchored?_append (anchor : Anchor) (a b : List PlacedHeading) :
    anchored? anchor (a ++ b) =
      ((anchored? anchor a).map fun found => (found.1, found.2 ++ b)).or (anchored? anchor b) := by
  induction a with
  | nil => rfl
  | cons heading rest ih =>
    rw [List.cons_append, anchored?, anchored?]
    split
    · rfl
    · exact ih

theorem anchored?_shift (n : Nat) (anchor : Anchor) (headings : List PlacedHeading) :
    anchored? anchor (headings.map (PlacedHeading.shift n)) =
      (anchored? anchor headings).map fun found =>
        (found.1.shift n, found.2.map (PlacedHeading.shift n)) := by
  induction headings with
  | nil => rfl
  | cons heading rest ih =>
    have hsame : (heading.shift n).heading = heading.heading := rfl
    rw [List.map_cons, anchored?, anchored?, hsame]
    split
    · rfl
    · exact ih

theorem sectionEnd_append (documentSize level : Nat) (a b : List PlacedHeading) :
    sectionEnd documentSize level (a ++ b) =
      match a.find? fun next => next.heading.level ≤ level with
      | some next => next.line.start
      | none => sectionEnd documentSize level b := by
  rw [sectionEnd, List.find?_append]
  cases a.find? fun next => decide (next.heading.level ≤ level) <;> rfl

theorem sectionEnd_shift (n documentSize level : Nat) (rest : List PlacedHeading) :
    sectionEnd (n + documentSize) level (rest.map (PlacedHeading.shift n)) =
      n + sectionEnd documentSize level rest := by
  rw [sectionEnd, sectionEnd, List.find?_map]
  simp only [Function.comp_def, show ∀ heading : PlacedHeading,
    (heading.shift n).heading = heading.heading from fun _ => rfl]
  cases rest.find? fun next => decide (next.heading.level ≤ level) <;> rfl

theorem askedFor_shift (n documentSize : Nat) (anchor : Anchor) (headings : List PlacedHeading) :
    askedFor (n + documentSize) anchor (headings.map (PlacedHeading.shift n)) =
      n + askedFor documentSize anchor headings := by
  rw [askedFor, askedFor, anchored?_shift]
  cases anchored? anchor headings with
  | none => rfl
  | some found =>
    cases anchor.placement with
    | afterHeading => rfl
    | endOfSection => exact sectionEnd_shift n documentSize _ found.2

/-- Headings in front of the place that is asked for do not move it, and with those behind them
it shifts. -/
theorem askedFor_cases (documentSize : Nat) (anchor : Anchor) (a b : List PlacedHeading) :
    (∃ heading ∈ a, ∃ offset, (offset = heading.line.start ∨ offset = heading.line.stop) ∧
      ∀ n, askedFor (n + documentSize) anchor (a ++ b.map (PlacedHeading.shift n)) = offset) ∨
    ∃ offset, ∀ n, askedFor (n + documentSize) anchor (a ++ b.map (PlacedHeading.shift n)) =
      n + offset := by
  simp only [askedFor, anchored?_append]
  cases hfound : anchored? anchor a with
  | none =>
    refine .inr ⟨askedFor documentSize anchor b, fun n => ?_⟩
    exact askedFor_shift n documentSize anchor b
  | some found =>
    obtain ⟨hmem, hrest⟩ := mem_of_anchored? (hfound : _ = some (found.1, found.2))
    cases anchor.placement with
    | afterHeading => exact .inl ⟨found.1, hmem, _, .inr rfl, fun n => rfl⟩
    | endOfSection =>
      simp only [Option.map_some, Option.some_or, sectionEnd_append]
      cases hnext : found.2.find? fun next => decide (next.heading.level ≤ found.1.heading.level)
      with
      | some next =>
        exact .inl ⟨next, hrest next (List.mem_of_find?_eq_some hnext), _, .inl rfl, fun n => rfl⟩
      | none => exact .inr ⟨_, fun n => sectionEnd_shift n documentSize _ b⟩

/-! ### Planned edits -/

theorem plan_region {layout before after : Layout} {diagram : Diagram} {opener content : Text}
    {closer : Option Text} (hproper : layout.Proper) (hnodup : layout.names.Nodup)
    (hlayout : layout = before ++ .region diagram.kind.name opener content closer :: after)
    (anchor : Anchor) :
    (plan layout.text (layout.regions 0) anchor diagram).2 =
      if closer.isSome = true ∧ content = codeBlock diagram.markup then none
      else some (.replace
        ⟨size before.text + size opener, size before.text + size opener + size content⟩
        (newContent diagram.kind.name opener (codeBlock diagram.markup) closer)) := by
  have hmarked : Stretch.MarkedRegion diagram.kind.name opener content closer :=
    hproper.marked (.region _ opener content closer) (by simp [hlayout])
  have hmem := Layout.placed_mem_regions 0 before after diagram.kind.name opener content closer
  rw [Nat.zero_add, ← hlayout] at hmem
  have hnamed : Region.named? (layout.regions 0) diagram.kind.name = some
      (.placed (size before.text) diagram.kind.name opener content closer) := by
    rw [← Layout.map_name_regions 0] at hnodup
    exact Region.named?_of_mem hnodup hmem
  have hholds : holds (.placed (size before.text) diagram.kind.name opener content closer)
      (codeBlock diagram.markup) = true ↔
        closer.isSome = true ∧ content = codeBlock diagram.markup := by
    simp [holds, Region.placed]
  split
  · rename_i hsame
    rw [plan_of_holds hnamed (hholds.mpr hsame)]
  · rename_i hnot
    rw [← hholds] at hnot
    rw [plan_of_not_holds hnamed (by simpa using hnot),
      replacement_eq hmarked.opener_piece.ne_nil hlayout]
    rfl

theorem exists_split_of_mem_names {layout : Layout} {name : String} (h : name ∈ layout.names) :
    ∃ before after : Layout, ∃ opener content closer,
      layout = before ++ .region name opener content closer :: after := by
  obtain ⟨stretch, hmem, hname⟩ := List.mem_filterMap.mp h
  cases stretch with
  | plain piece => contradiction
  | region other opener content closer =>
    obtain rfl : other = name := Option.some.inj hname
    obtain ⟨before, after, rfl⟩ := List.append_of_mem hmem
    exact ⟨before, after, opener, content, closer, rfl⟩

end Update

/-- The edit, as much further back in a document. -/
def Edit.shift (n : Nat) : Edit → Edit
  | .replace range text => .replace (range.shift n) text
  | .insert offset block => .insert (n + offset) block

theorem Edit.offset_shift (n : Nat) (edit : Edit) : (edit.shift n).offset = n + edit.offset := by
  cases edit <;> rfl

theorem Edit.shift_shift (m n : Nat) (edit : Edit) :
    (edit.shift m).shift n = edit.shift (n + m) := by
  cases edit <;> simp [shift, Span.shift, Nat.add_assoc]

namespace Slot

open Update

/-- Edits for one diagram in documents that differ in the content of a slot. -/
inductive Parallel (slot : Slot) (content content' : Text) : Option Edit → Option Edit → Prop where
  | none : Parallel slot content content' none none
  | front (edit : Edit) : edit.Within slot.before.text →
      Parallel slot content content' (some edit) (some edit)
  | behind (edit : Edit) : Parallel slot content content'
      (some (edit.shift (slot.stop content))) (some (edit.shift (slot.stop content')))

/-- The edits that are planned for a diagram are parallel. -/
def Parallels (slot : Slot) (content content' : Text) (anchor : Anchor) (diagram : Diagram) :
    Prop :=
  Parallel slot content content'
    (plan (slot.fill content).text ((slot.fill content).regions 0) anchor diagram).2
    (plan (slot.fill content').text ((slot.fill content').regions 0) anchor diagram).2

variable {slot : Slot} {content content' : Text} (hproper : (slot.fill content).Proper)
  (hproper' : (slot.fill content').Proper)
  (hfence : slot.fenceBehind content = slot.fenceBehind content')

include hproper hproper' hfence in
theorem newRegionOffset_cases (anchor : Anchor) :
    (∃ offset, offset ≤ size slot.before.text ∧
      newRegionOffset (slot.fill content).text ((slot.fill content).regions 0) anchor = offset ∧
      newRegionOffset (slot.fill content').text ((slot.fill content').regions 0) anchor =
        offset) ∨
    ∃ offset,
      newRegionOffset (slot.fill content).text ((slot.fill content).regions 0) anchor =
        slot.stop content + offset ∧
      newRegionOffset (slot.fill content').text ((slot.fill content').regions 0) anchor =
        slot.stop content' + offset := by
  simp only [newRegionOffset, anchorOffset_eq, Layout.freeHeadings_text hproper,
    Layout.freeHeadings_text hproper', freeHeadings_fill hproper, freeHeadings_fill hproper',
    hfence, size_text_fill]
  obtain ⟨heading, hmem, offset, hoffset, hasked⟩ | ⟨offset, hasked⟩ :=
    askedFor_cases (size slot.after.text) anchor (slot.before.freeHeadings none)
      (slot.after.freeHeadings (slot.fenceBehind content'))
  · simp only [hasked]
    have hbounds := Layout.stop_of_mem_freeHeadings (proper_before hproper) hmem
    left
    by_cases hlt : offset < size slot.before.text
    · rw [regionAt?_fill_of_lt hlt, regionAt?_fill_of_lt hlt]
      cases hregion : regionAt? (slot.before.regions 0) offset with
      | none => exact ⟨offset, Nat.le_of_lt hlt, rfl, rfl⟩
      | some region =>
        refine ⟨region.range.start, ?_, rfl, rfl⟩
        have hcontains := List.find?_some hregion
        simp only [Region.contains, Span.contains, Bool.and_eq_true, decide_eq_true_eq]
          at hcontains
        omega
    · have hle : size slot.before.text ≤ offset := Nat.le_of_not_lt hlt
      have hstop : ∀ content, offset < slot.stop content := by
        intro content
        have := size_before_lt_front hproper
        rw [stop]
        omega
      rw [regionAt?_fill_inside hle (hstop content), regionAt?_fill_inside hle (hstop content')]
      refine ⟨size slot.before.text, Nat.le_refl _, ?_, ?_⟩ <;> simp only [range_region]
  · simp only [hasked, regionAt?_fill_behind]
    right
    cases regionAt? (slot.after.regions 0) offset with
    | none => exact ⟨offset, rfl, rfl⟩
    | some region => exact ⟨region.range.start, rfl, rfl⟩

variable (hnodup : (slot.fill content).names.Nodup)

include hproper hproper' hnodup in
theorem parallels_before (anchor : Anchor) {diagram : Diagram}
    (hname : diagram.kind.name ∈ slot.before.names) :
    slot.Parallels content content' anchor diagram := by
  have hnodup' : (slot.fill content').names.Nodup := by rwa [names_fill] at hnodup ⊢
  obtain ⟨before, after, opener, old, closer, hsplit⟩ := exists_split_of_mem_names hname
  have hfill : ∀ content, slot.fill content =
      before ++ .region diagram.kind.name opener old closer ::
        (after ++ .region slot.name slot.opener content (some slot.closer) :: slot.after) := by
    simp [fill, hsplit]
  rw [Parallels, plan_region hproper hnodup (hfill content),
    plan_region hproper' hnodup' (hfill content')]
  split
  · exact .none
  · refine .front _ ⟨before.text ++ opener, old, closer.getD [] ++ after.text, ?_, ?_, ?_⟩
    · simp [hsplit, Stretch.text]
    · simp [Edit.offset]
    · simp [Edit.stop]

include hproper hproper' hnodup in
theorem parallels_after (anchor : Anchor) {diagram : Diagram}
    (hname : diagram.kind.name ∈ slot.after.names) :
    slot.Parallels content content' anchor diagram := by
  have hnodup' : (slot.fill content').names.Nodup := by rwa [names_fill] at hnodup ⊢
  obtain ⟨before, after, opener, old, closer, hsplit⟩ := exists_split_of_mem_names hname
  have hfill : ∀ content, slot.fill content = (slot.before ++
      .region slot.name slot.opener content (some slot.closer) :: before) ++
        .region diagram.kind.name opener old closer :: after := by
    simp [fill, hsplit]
  have hsize : ∀ content, size (Layout.text (slot.before ++
      .region slot.name slot.opener content (some slot.closer) :: before)) =
        slot.stop content + size before.text := by
    simp [Stretch.text, stop, front, Nat.add_assoc]
  rw [Parallels, plan_region hproper hnodup (hfill content),
    plan_region hproper' hnodup' (hfill content'), hsize, hsize]
  split
  · exact .none
  · simp only [Nat.add_assoc]
    exact .behind (.replace ⟨size before.text + size opener,
      size before.text + (size opener + size old)⟩ _)

include hproper hproper' hfence in
theorem parallels_new (anchor : Anchor) {diagram : Diagram}
    (hnone : ∀ content, Region.named? ((slot.fill content).regions 0) diagram.kind.name = none) :
    slot.Parallels content content' anchor diagram := by
  rw [Parallels, plan_of_none (hnone content), plan_of_none (hnone content')]
  obtain ⟨offset, hle, hoffset, hoffset'⟩ | ⟨offset, hoffset, hoffset'⟩ :=
    newRegionOffset_cases hproper hproper' hfence anchor
  · obtain ⟨before, after, hsplit, hsize⟩ := meets_newRegionOffset hproper anchor
    rw [hoffset] at hsize
    obtain ⟨middle, hmiddle, -⟩ := Layout.split_of_size_le (hsplit ▸ hproper) hsplit.symm
      (hsize ▸ hle)
    rw [hoffset, hoffset']
    refine .front _ ⟨before.text, [], Layout.text middle, ?_, ?_, ?_⟩
    · simp [hmiddle]
    · simp [Edit.offset, hsize]
    · simp [Edit.stop, hsize]
  · rw [hoffset, hoffset']
    exact .behind (.insert offset _)

include hproper hproper' hnodup in
/-- The edit for another region does not depend on the content of the slot. -/
theorem parallels_of_mem_names (anchor : Anchor) {diagram : Diagram}
    (hother : diagram.kind.name ≠ slot.name)
    (hname : diagram.kind.name ∈ (slot.fill content).names) :
    slot.Parallels content content' anchor diagram := by
  rw [names_fill, List.mem_append, List.mem_cons] at hname
  obtain hbefore | hsame | hafter := hname
  · exact parallels_before hproper hproper' hnodup anchor hbefore
  · exact absurd hsame hother
  · exact parallels_after hproper hproper' hnodup anchor hafter

include hproper hproper' hfence hnodup in
/-- Nor does that for a new region, if the same fence is open behind the slot. -/
theorem parallels_of_fence (anchor : Anchor) {diagram : Diagram}
    (hother : diagram.kind.name ≠ slot.name) :
    slot.Parallels content content' anchor diagram := by
  by_cases hname : diagram.kind.name ∈ (slot.fill content).names
  · exact parallels_of_mem_names hproper hproper' hnodup anchor hother hname
  · refine parallels_new hproper hproper' hfence anchor fun content => ?_
    rw [names_fill] at hname
    rwa [named?_eq_none_iff, names_fill]

end Slot

/-! ### Carrying out -/

namespace Text

theorem dropBytes_add_append (a : Text) (n : Nat) (b : Text) :
    dropBytes (size a + n) (a ++ b) = dropBytes n b := by
  induction a with
  | nil => simp
  | cons c cs ih =>
    have hpos : c.utf8Size ≠ 0 := Nat.ne_of_gt c.utf8Size_pos
    rw [size_cons, List.cons_append, dropBytes, if_neg (by omega),
      show c.utf8Size + size cs + n - c.utf8Size = size cs + n by omega, ih]

theorem slice_add_append (a : Text) (start stop : Nat) (b : Text) :
    slice (size a + start) (size a + stop) (a ++ b) = slice start stop b := by
  rw [slice, slice, dropBytes_add_append, Nat.add_sub_add_left]

end Text

namespace Update

/-- Behind a part of the document that is dealt with, edits are carried out as in the rest alone. -/
theorem carryOut_shift (front rest written : Text) (cursor : Nat) (edits : List Edit) :
    carryOut (front ++ rest) written (size front + cursor) (edits.map (Edit.shift (size front))) =
      carryOut rest written cursor edits := by
  induction edits generalizing written cursor with
  | nil => rw [List.map_nil, carryOut, carryOut, dropBytes_add_append]
  | cons edit edits ih =>
    cases edit with
    | replace range text =>
      rw [List.map_cons, Edit.shift, Span.shift, carryOut, carryOut, slice_add_append, ih]
    | insert offset block =>
      rw [List.map_cons, Edit.shift, carryOut, carryOut, slice_add_append, ih, size_append]
      simp only [Nat.add_lt_add_iff_left]

/-- An edit within a part of the document brings the same whatever is behind that part. -/
theorem exists_carryOut_within {front kept old after : Text} {edit : Edit}
    (hoffset : edit.offset = size (front ++ kept))
    (hstop : edit.stop = size (front ++ kept) + size old) (written : Text) :
    ∃ new, ∀ behind, behind ≠ [] → ∀ edits,
      carryOut (front ++ kept ++ old ++ after ++ behind) written (size front) (edit :: edits) =
        carryOut (front ++ kept ++ old ++ after ++ behind) (written ++ new)
          (size (front ++ kept ++ old)) edits := by
  have hkept : ∀ behind, slice (size front) (size (front ++ kept))
      (front ++ kept ++ old ++ after ++ behind) = kept := by
    intro behind
    rw [size_append]
    simpa using slice_append front kept (old ++ (after ++ behind))
  cases edit with
  | replace range text =>
    obtain ⟨start, stop⟩ := range
    obtain ⟨rfl, rfl⟩ : start = size (front ++ kept) ∧
      stop = size (front ++ kept) + size old := ⟨hoffset, hstop⟩
    refine ⟨kept ++ text, fun behind _ edits => ?_⟩
    rw [carryOut, hkept, ← size_append, List.append_assoc written]
  | insert offset block =>
    obtain rfl : offset = size (front ++ kept) := hoffset
    obtain rfl : old = [] := by
      rw [← size_eq_zero]
      simp only [Edit.stop] at hstop
      omega
    refine ⟨kept ++ (separator (written ++ kept) ++ (block ++ ['\n'])), fun behind hne edits => ?_⟩
    have hlt : size (front ++ kept) < size (front ++ kept ++ [] ++ after ++ behind) := by
      rw [ne_eq, ← size_eq_zero] at hne
      simp only [size_append, size_nil]
      omega
    rw [carryOut, hkept, if_pos hlt]
    simp only [List.append_assoc, List.append_nil]

/-- What edits make of a part of the document does not depend on what is behind it. -/
theorem exists_carryOut_front {text : Text} {edits : List Edit}
    (hwithin : ∀ edit ∈ edits, edit.Within text)
    (horder : edits.Pairwise fun first second => first.stop ≤ second.offset) {front rest : Text}
    (htext : text = front ++ rest) (hcursor : ∀ edit ∈ edits, size front ≤ edit.offset)
    (written : Text) :
    ∃ written' front' rest', text = front' ++ rest' ∧ ∀ behind, behind ≠ [] → ∀ more,
      carryOut (text ++ behind) written (size front) (edits ++ more) =
        carryOut (text ++ behind) written' (size front') more := by
  induction edits generalizing front rest written with
  | nil => exact ⟨written, front, rest, htext, fun _ _ _ => rfl⟩
  | cons edit edits ih =>
    rw [List.forall_mem_cons] at hwithin hcursor
    rw [List.pairwise_cons] at horder
    obtain ⟨before, old, after, hsplit, hoffset, hstop⟩ := hwithin.1
    obtain ⟨kept, rfl, -⟩ :=
      append_eq_append_of_size_le (htext.symm.trans hsplit) (hoffset ▸ hcursor.1)
    obtain ⟨new, hstep⟩ := @exists_carryOut_within front kept old after edit hoffset hstop written
    have hcut : text = front ++ kept ++ old ++ after := by simp [hsplit]
    obtain ⟨written', front', rest', hend, hout⟩ := ih hwithin.2 horder.2 hcut
      (by rw [size_append, ← hstop]; exact horder.1) (written ++ new)
    refine ⟨written', front', rest', hend, fun behind hne more => ?_⟩
    rw [List.cons_append, ← hout behind hne more, hcut]
    exact hstep behind hne (edits ++ more)

end Update

namespace Slot

open Update

/-- The edits that are planned with a content in the slot. -/
def planned (slot : Slot) (anchor : Kind → Anchor) (diagrams : List Diagram) (content : Text) :
    List (Diagram × Edit) :=
  plannedEdits (slot.fill content).text ((slot.fill content).regions 0) anchor diagrams

/-- The edit that gives the slot its block. -/
def own (slot : Slot) (diagram : Diagram) (content : Text) : List (Diagram × Edit) :=
  if content = codeBlock diagram.markup then []
  else [(diagram, .replace ⟨size slot.front, size slot.front + size content⟩
    (codeBlock diagram.markup))]

/-- The planned edits are in front of the slot's content or behind its region. -/
structure Parted (slot : Slot) (content : Text) (planned front behind : List (Diagram × Edit)) :
    Prop where
  front_eq : (planned.filter fun pair => pair.2.offset < size slot.front) = front
  behind_eq : (planned.filter fun pair => ¬ pair.2.offset < size slot.front) =
    behind.map (Prod.map id (Edit.shift (slot.stop content)))

namespace Parted

variable {slot : Slot} {content : Text} {planned front behind : List (Diagram × Edit)}

theorem nil : slot.Parted content [] [] [] :=
  ⟨rfl, rfl⟩

theorem cons_front (h : slot.Parted content planned front behind) {diagram : Diagram} {edit : Edit}
    (hlt : edit.offset < size slot.front) :
    slot.Parted content ((diagram, edit) :: planned) ((diagram, edit) :: front) behind := by
  constructor
  · rw [List.filter_cons_of_pos (by simpa using hlt), h.front_eq]
  · rw [List.filter_cons_of_neg (by simpa using hlt), h.behind_eq]

theorem cons_behind (h : slot.Parted content planned front behind) (diagram : Diagram)
    (edit : Edit) :
    slot.Parted content ((diagram, edit.shift (slot.stop content)) :: planned) front
      ((diagram, edit) :: behind) := by
  have hle : ¬ (edit.shift (slot.stop content)).offset < size slot.front := by
    rw [Edit.offset_shift, stop]
    omega
  constructor
  · rw [List.filter_cons_of_neg (by simpa using hle), h.front_eq]
  · rw [List.filter_cons_of_pos (by simpa using hle), h.behind_eq]
    rfl

theorem inOrder_shift (n : Nat) (planned : List (Diagram × Edit)) :
    inOrder (planned.map (Prod.map id (Edit.shift n))) =
      (inOrder planned).map (Prod.map id (Edit.shift n)) := by
  rw [inOrder, inOrder, List.map_mergeSort]
  intro first _ second _
  simp [Edit.offset_shift]

theorem offset_of_mem_own {diagram : Diagram} {pair : Diagram × Edit}
    (h : pair ∈ slot.own diagram content) : pair.2.offset = size slot.front := by
  rw [own] at h
  split at h
  · contradiction
  · rw [List.mem_singleton.mp h]
    rfl

theorem inOrder_own (diagram : Diagram) :
    inOrder (slot.own diagram content) = slot.own diagram content := by
  rw [own]
  split <;> simp [inOrder]

theorem inOrder_own_behind (hcloser : slot.closer ≠ []) (diagram : Diagram)
    (behind behind' : List (Diagram × Edit)) :
    inOrder (behind.map (Prod.map id (Edit.shift (slot.stop content))) ++
        slot.own diagram content ++
          behind'.map (Prod.map id (Edit.shift (slot.stop content)))) =
      slot.own diagram content ++
        (inOrder (behind ++ behind')).map (Prod.map id (Edit.shift (slot.stop content))) := by
  have hle : ∀ behind : List (Diagram × Edit),
      ∀ pair ∈ behind.map (Prod.map id (Edit.shift (slot.stop content))),
        size slot.front + 1 ≤ pair.2.offset := by
    intro behind pair hpair
    obtain ⟨other, -, rfl⟩ := List.mem_map.mp hpair
    rw [ne_eq, ← size_eq_zero] at hcloser
    simp only [Prod.map_snd, Edit.offset_shift, stop]
    omega
  have hnone : ∀ behind : List (Diagram × Edit),
      (behind.map (Prod.map id (Edit.shift (slot.stop content)))).filter
        (fun pair => decide (pair.2.offset < size slot.front + 1)) = [] := fun behind =>
    List.filter_eq_nil_iff.mpr fun pair hpair => by
      simpa only [decide_eq_true_eq, Nat.not_lt] using hle behind pair hpair
  have hall : ∀ behind : List (Diagram × Edit),
      (behind.map (Prod.map id (Edit.shift (slot.stop content)))).filter
        (fun pair => decide (¬ pair.2.offset < size slot.front + 1)) =
          behind.map (Prod.map id (Edit.shift (slot.stop content))) := fun behind =>
    List.filter_eq_self.mpr fun pair hpair => by
      simpa only [decide_eq_true_eq, Nat.not_lt] using hle behind pair hpair
  rw [inOrder_split (size slot.front + 1)]
  simp only [List.filter_append, hnone, hall]
  rw [List.filter_eq_self.mpr fun pair hpair => by simp [offset_of_mem_own hpair],
    List.filter_eq_nil_iff.mpr fun pair hpair => by simp [offset_of_mem_own hpair],
    List.nil_append, List.append_nil, List.append_nil, inOrder_own, ← List.map_append,
    inOrder_shift]

/-- The slot's own edit comes between those in front of it and those behind it. -/
theorem inOrder_eq {planned' front' behind' : List (Diagram × Edit)}
    (h : slot.Parted content planned front behind)
    (h' : slot.Parted content planned' front' behind') (hcloser : slot.closer ≠ [])
    (diagram : Diagram) :
    inOrder (planned ++ slot.own diagram content ++ planned') =
      inOrder (front ++ front') ++ (slot.own diagram content ++
        (inOrder (behind ++ behind')).map (Prod.map id (Edit.shift (slot.stop content)))) := by
  rw [inOrder_split (size slot.front)]
  simp only [List.filter_append, h.front_eq, h'.front_eq, h.behind_eq, h'.behind_eq]
  rw [List.filter_eq_nil_iff.mpr fun pair hpair => by simp [offset_of_mem_own hpair],
    List.filter_eq_self.mpr fun pair hpair => by simp [offset_of_mem_own hpair],
    List.append_nil, inOrder_own_behind hcloser]

end Parted

section Planned

variable {slot : Slot} {content content' : Text} (hproper : (slot.fill content).Proper)
  (hproper' : (slot.fill content').Proper)
  (hfence : slot.fenceBehind content = slot.fenceBehind content')
  (hnodup : (slot.fill content).names.Nodup)

include hproper hnodup in
theorem planned_own (anchor : Kind → Anchor) {diagram : Diagram}
    (hname : diagram.kind.name = slot.name) :
    slot.planned anchor [diagram] content = slot.own diagram content := by
  have hfill : slot.fill content = slot.before ++
      .region diagram.kind.name slot.opener content (some slot.closer) :: slot.after := by
    rw [hname, fill]
  have hnew : newContent diagram.kind.name slot.opener (codeBlock diagram.markup)
      (some slot.closer) = codeBlock diagram.markup := by
    simp [newContent, whole_opener hproper]
  rw [planned, plannedEdits, List.filterMap_cons, List.filterMap_nil,
    plan_region hproper hnodup hfill, hnew, own, size_front]
  simp only [Option.isSome_some, true_and]
  by_cases hsame : content = codeBlock diagram.markup
  · simp [hsame]
  · simp [hsame]

include hproper in
/-- The edits for the other diagrams are in front of the slot or behind it. -/
theorem exists_parted {anchor : Kind → Anchor} {diagrams : List Diagram}
    (hparallels : ∀ diagram ∈ diagrams,
      slot.Parallels content content' (anchor diagram.kind) diagram) :
    ∃ front behind : List (Diagram × Edit), (∀ pair ∈ front, pair.2.Within slot.before.text) ∧
      slot.Parted content (slot.planned anchor diagrams content) front behind ∧
      slot.Parted content' (slot.planned anchor diagrams content') front behind := by
  induction diagrams with
  | nil => exact ⟨[], [], by simp, .nil, .nil⟩
  | cons diagram rest ih =>
    rw [List.forall_mem_cons] at hparallels
    obtain ⟨front, behind, hwithin, hparted, hparted'⟩ := ih hparallels.2
    have hparallel := hparallels.1
    rw [Parallels] at hparallel
    rw [planned, plannedEdits] at hparted hparted' ⊢
    rw [planned, plannedEdits, List.filterMap_cons, List.filterMap_cons]
    generalize (plan (slot.fill content).text ((slot.fill content).regions 0)
      (anchor diagram.kind) diagram).2 = edit? at hparallel ⊢
    generalize (plan (slot.fill content').text ((slot.fill content').regions 0)
      (anchor diagram.kind) diagram).2 = edit?' at hparallel ⊢
    cases hparallel with
    | none => exact ⟨front, behind, hwithin, hparted, hparted'⟩
    | front edit hedit =>
      have hlt : edit.offset < size slot.front := by
        obtain ⟨before, old, after, hsplit, hoffset, -⟩ := hedit
        have hfront := size_before_lt_front hproper
        rw [hsplit] at hfront
        simp only [size_append] at hoffset hfront
        omega
      exact ⟨(diagram, edit) :: front, behind, List.forall_mem_cons.mpr ⟨hedit, hwithin⟩,
        hparted.cons_front hlt, hparted'.cons_front hlt⟩
    | behind edit =>
      exact ⟨front, (diagram, edit) :: behind, hwithin, hparted.cons_behind diagram edit,
        hparted'.cons_behind diagram edit⟩

/-- With its own edit the slot holds its block, whatever stood there. -/
theorem carryOut_own (diagram : Diagram) {front rest : Text}
    (hrest : slot.before.text = front ++ rest) (written : Text) {edits : List Edit}
    (hedits : ∀ edit ∈ edits.head?, size (slot.front ++ content) ≤ edit.offset) :
    carryOut (slot.fill content).text written (size front)
        ((slot.own diagram content).map Prod.snd ++ edits) =
      carryOut (slot.fill content).text
        (written ++ (rest ++ slot.opener) ++ codeBlock diagram.markup)
        (size (slot.front ++ content)) edits := by
  have hfront : slot.front = front ++ (rest ++ slot.opener) := by
    rw [Slot.front, hrest, List.append_assoc]
  have hdocument : (slot.fill content).text =
      front ++ ((rest ++ slot.opener) ++ (content ++ slot.back)) := by
    rw [text_fill, hfront, List.append_assoc]
  rw [own]
  split
  · rename_i hsame
    have hsplit : (slot.fill content).text =
        front ++ ((rest ++ slot.opener ++ content) ++ slot.back) := by
      rw [hdocument]
      simp only [List.append_assoc]
    have hsize : size front + size (rest ++ slot.opener ++ content) =
        size (slot.front ++ content) := by
      simp [hfront]
    have hadvance := carryOut_advance hsplit written (hsize ▸ hedits)
    rw [hsize] at hadvance
    rw [List.map_nil, List.nil_append, hadvance, hsame]
    simp only [List.append_assoc]
  · have hslice : slice (size front) (size slot.front) (slot.fill content).text =
        rest ++ slot.opener := by
      rw [hdocument, hfront, size_append, slice_append]
    rw [List.map_singleton, List.singleton_append, carryOut, hslice, ← size_append]

/-- Behind the slot edits are carried out as in what is behind it alone. -/
theorem carryOut_behind (written : Text) (edits : List Edit) :
    carryOut (slot.fill content).text written (size (slot.front ++ content))
        (edits.map (Edit.shift (slot.stop content))) =
      carryOut slot.back written 0 (edits.map (Edit.shift (size slot.closer))) := by
  have hshift : edits.map (Edit.shift (slot.stop content)) =
      (edits.map (Edit.shift (size slot.closer))).map
        (Edit.shift (size (slot.front ++ content))) := by
    simp [Edit.shift_shift, Function.comp_def, stop]
  rw [hshift, text_fill, ← List.append_assoc]
  exact carryOut_shift (slot.front ++ content) slot.back written 0 _

/-- The updated document, once the edits in front of the slot are carried out. -/
theorem carryOut_own_behind (diagram : Diagram) {front rest : Text}
    (hrest : slot.before.text = front ++ rest) (written : Text) (edits : List Edit) :
    carryOut (slot.fill content).text written (size front)
        ((slot.own diagram content).map Prod.snd ++
          edits.map (Edit.shift (slot.stop content))) =
      carryOut slot.back (written ++ (rest ++ slot.opener) ++ codeBlock diagram.markup) 0
        (edits.map (Edit.shift (size slot.closer))) := by
  rw [carryOut_own diagram hrest written, carryOut_behind]
  intro edit hedit
  obtain ⟨other, -, rfl⟩ := List.mem_map.mp (List.mem_of_mem_head? hedit)
  rw [Edit.offset_shift, stop, size_append]
  omega

include hproper hnodup in
theorem plannedEdits_fill (anchor : Kind → Anchor) (first second : List Diagram)
    {diagram : Diagram} (hname : diagram.kind.name = slot.name) :
    plannedEdits (slot.fill content).text ((slot.fill content).regions 0) anchor
        (first ++ diagram :: second) =
      slot.planned anchor first content ++ slot.own diagram content ++
        slot.planned anchor second content := by
  rw [← planned_own hproper hnodup anchor hname]
  simp only [planned, plannedEdits, ← List.filterMap_append, List.append_assoc,
    List.singleton_append]

/-- The updated document, once the edits in front of the slot are carried out. -/
theorem text_ofDiagrams_fill {anchor : Kind → Anchor} {diagrams : List Diagram}
    {diagram : Diagram} {front behind : List (Diagram × Edit)}
    (horder : inOrder (plannedEdits (slot.fill content).text ((slot.fill content).regions 0)
      anchor diagrams) = front ++ (slot.own diagram content ++
        behind.map (Prod.map id (Edit.shift (slot.stop content)))))
    {written before rest : Text} (hrest : slot.before.text = before ++ rest)
    (hfront : ∀ behind, behind ≠ [] → ∀ more,
      carryOut (slot.before.text ++ behind) [] 0 (front.map Prod.snd ++ more) =
        carryOut (slot.before.text ++ behind) written (size before) more)
    (hback : slot.back ≠ []) :
    (ofDiagrams (slot.fill content).text ((slot.fill content).regions 0) anchor diagrams).text =
      carryOut slot.back (written ++ (rest ++ slot.opener) ++ codeBlock diagram.markup) 0
        ((behind.map Prod.snd).map (Edit.shift (size slot.closer))) := by
  have hdocument : (slot.fill content).text =
      slot.before.text ++ (slot.opener ++ (content ++ slot.back)) := by
    rw [text_fill, Slot.front, List.append_assoc]
  have hbehind : (behind.map (Prod.map id (Edit.shift (slot.stop content)))).map Prod.snd =
      (behind.map Prod.snd).map (Edit.shift (slot.stop content)) := by
    simp
  rw [text_ofDiagrams, horder, List.map_append, List.map_append, hbehind, hdocument,
    hfront _ (by simp [hback]), ← hdocument, carryOut_own_behind diagram hrest]

include hproper hproper' hnodup in
/-- An update that gives the slot its block leaves nothing of what stood there. -/
theorem text_ofDiagrams_of_parallels {anchor : Kind → Anchor} {diagrams : List Diagram}
    (hkinds : (diagrams.map Diagram.kind).Nodup) {diagram : Diagram} (hmem : diagram ∈ diagrams)
    (hname : diagram.kind.name = slot.name)
    (hparallels : ∀ other ∈ diagrams, other.kind.name ≠ slot.name →
      slot.Parallels content content' (anchor other.kind) other) :
    (ofDiagrams (slot.fill content).text ((slot.fill content).regions 0) anchor diagrams).text =
      (ofDiagrams (slot.fill content').text ((slot.fill content').regions 0) anchor
        diagrams).text := by
  have hnodup' : (slot.fill content').names.Nodup := by rwa [names_fill] at hnodup ⊢
  have hcloser : slot.closer ≠ [] := (isPiece_closer hproper).ne_nil
  have hstops := pairwise_stop_le_offset hproper anchor hkinds
  obtain ⟨first, second, rfl⟩ := List.append_of_mem hmem
  have hothers : ∀ other, other ∈ first ∨ other ∈ second → other.kind.name ≠ slot.name := by
    intro other hother hsame
    have hkind : other.kind = diagram.kind := Kind.name_injective (hsame.trans hname.symm)
    rw [List.map_append, List.map_cons, List.perm_middle.nodup_iff, List.nodup_cons,
      ← List.map_append] at hkinds
    exact hkinds.1 (hkind ▸ List.mem_map_of_mem (List.mem_append.mpr hother))
  obtain ⟨front₁, behind₁, hwithin₁, hparted₁, hparted₁'⟩ :=
    exists_parted hproper fun other h =>
      hparallels other (List.mem_append_left _ h) (hothers other (.inl h))
  obtain ⟨front₂, behind₂, hwithin₂, hparted₂, hparted₂'⟩ :=
    exists_parted hproper fun other h =>
      hparallels other (List.mem_append_right _ (List.mem_cons_of_mem _ h))
        (hothers other (.inr h))
  have horder := hparted₁.inOrder_eq hparted₂ hcloser diagram
  have horder' := hparted₁'.inOrder_eq hparted₂' hcloser diagram
  rw [← plannedEdits_fill hproper hnodup anchor first second hname] at horder
  rw [← plannedEdits_fill hproper' hnodup' anchor first second hname] at horder'
  have hwithin : ∀ edit ∈ (inOrder (front₁ ++ front₂)).map Prod.snd,
      edit.Within slot.before.text := by
    intro edit hedit
    obtain ⟨pair, hpair, rfl⟩ := List.mem_map.mp hedit
    exact (List.mem_append.mp (mem_inOrder.mp hpair)).elim (hwithin₁ pair) (hwithin₂ pair)
  rw [horder, List.map_append, List.pairwise_append] at hstops
  obtain ⟨written, before, rest, hrest, hfront⟩ :=
    exists_carryOut_front hwithin hstops.1 (List.nil_append _).symm (fun _ _ => Nat.zero_le _) []
  have hback : slot.back ≠ [] := by simp [back, hcloser]
  rw [text_ofDiagrams_fill horder hrest hfront hback,
    text_ofDiagrams_fill horder' hrest hfront hback]

include hproper hproper' hfence hnodup in
theorem text_ofDiagrams_eq (anchor : Kind → Anchor) {diagrams : List Diagram}
    (hkinds : (diagrams.map Diagram.kind).Nodup) {diagram : Diagram} (hmem : diagram ∈ diagrams)
    (hname : diagram.kind.name = slot.name) :
    (ofDiagrams (slot.fill content).text ((slot.fill content).regions 0) anchor diagrams).text =
      (ofDiagrams (slot.fill content').text ((slot.fill content').regions 0) anchor
        diagrams).text :=
  text_ofDiagrams_of_parallels hproper hproper' hnodup hkinds hmem hname fun other _ hother =>
    parallels_of_fence hproper hproper' hfence hnodup (anchor other.kind) hother

end Planned

end Slot

end DiagramSync
