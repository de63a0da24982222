import DiagramSync.Proofs.Engine.Reading

/-!
Text in code blocks. What stands between the line that begins a block and the line that ends it, or
the end of the document, is nothing to readers. It may look like a heading, a scenario, an entity
or a fence of another kind: as long as it does not end the block, it can be exchanged.
-/

namespace DiagramSync

open Text

/-! ### Lines inside of code blocks -/

namespace Fence

/-- The line ends the code block that the fence begins. -/
def ClosedBy (outer : Fence) (text : Text) : Prop :=
  ∃ fence, ofLine? text = some fence ∧ outer.closes fence text = true

/-- One of the lines begins a code block with the fence, and none behind it ends the block. -/
def OpenBehind (outer : Fence) (lines : List Text) : Prop :=
  ∃ before opener inside, lines = before ++ opener :: inside ∧ before.foldl next none = none ∧
    ofLine? opener = some outer ∧ ∀ text ∈ inside, ¬ outer.ClosedBy text

theorem next_of_not_closedBy {outer : Fence} {text : Text} (h : ¬ outer.ClosedBy text) :
    next (some outer) text = some outer := by
  cases hfence : ofLine? text with
  | none => exact next_of_no_fence hfence (some outer)
  | some fence =>
    have hcloses : ¬ outer.closes fence text = true := fun hcloses => h ⟨fence, hfence, hcloses⟩
    simp [next, hfence, hcloses]

theorem OpenBehind.foldl_next {outer : Fence} {lines : List Text} (h : outer.OpenBehind lines) :
    lines.foldl next none = some outer := by
  obtain ⟨before, opener, inside, rfl, hbefore, hopener, hinside⟩ := h
  have hopened : next none opener = some outer := by rw [next, hopener]
  rw [List.foldl_append, hbefore, List.foldl_cons, hopened]
  induction inside with
  | nil => rfl
  | cons text rest ih =>
    rw [List.forall_mem_cons] at hinside
    rw [List.foldl_cons, next_of_not_closedBy hinside.1]
    exact ih hinside.2

theorem after_eq_foldl (opened : Option Fence) (pieces : List Text) :
    after opened pieces = (pieces.map Line.content).foldl next opened := by
  rw [after, List.foldl_map]

end Fence

namespace Line

/-- There are as many lines, and where two differ, they stand inside of a code block and neither
ends it. -/
def AgreeOutsideCode (lines lines' : List Text) : Prop :=
  lines.length = lines'.length ∧
    ∀ i text text', lines[i]? = some text → lines'[i]? = some text' →
      text = text' ∨ ∃ outer : Fence, outer.OpenBehind (lines.take i) ∧
        ¬ outer.ClosedBy text ∧ ¬ outer.ClosedBy text'

theorem shown_ofPieces_cons (opened : Option Fence) (start : Nat) (piece : Text)
    (rest : List Text) :
    shown (ofPieces opened start (piece :: rest)) =
      (if Fence.holds opened (content piece) || Text.isBlank (content piece) then []
        else [content piece]) ++
      shown (ofPieces (Fence.next opened (content piece)) (start + size piece) rest) := by
  rw [ofPieces, shown, List.filter_cons, isShown, isBlank]
  by_cases hfenced : Fence.holds opened (content piece) = true
  · simp [hfenced, shown]
  · by_cases hblank : Text.isBlank (content piece) = true
    · simp [hblank, shown]
    · simp [hfenced, hblank, shown]

/-- The induction is on the pieces. The same fence is open in front of both, for a line that
differs leaves open what is open. -/
theorem shown_ofPieces_eq {opened : Option Fence} {start start' : Nat} {pieces pieces' : List Text}
    (hlength : pieces.length = pieces'.length)
    (h : ∀ i piece piece', pieces[i]? = some piece → pieces'[i]? = some piece' →
      content piece = content piece' ∨
        ∃ outer, Fence.after opened (pieces.take i) = some outer ∧
          ¬ outer.ClosedBy (content piece) ∧ ¬ outer.ClosedBy (content piece')) :
    shown (ofPieces opened start pieces) = shown (ofPieces opened start' pieces') := by
  induction pieces generalizing opened start start' pieces' with
  | nil =>
    obtain rfl : pieces' = [] := List.length_eq_zero_iff.mp hlength.symm
    rfl
  | cons piece rest ih =>
    obtain ⟨piece', rest', rfl⟩ := List.exists_cons_of_length_eq_add_one hlength.symm
    have hrest : ∀ {opened' : Option Fence} {start start' : Nat},
        Fence.next opened (content piece) = opened' →
          shown (ofPieces opened' start rest) = shown (ofPieces opened' start' rest') := by
      rintro opened' start start' rfl
      refine ih (by simpa using hlength) fun i next next' hnext hnext' => ?_
      exact h (i + 1) next next' hnext hnext'
    rw [shown_ofPieces_cons, shown_ofPieces_cons]
    obtain hsame | ⟨outer, hopened, hopen, hopen'⟩ := h 0 piece piece' rfl rfl
    · rw [← hsame, hrest rfl]
    · rw [List.take_zero, Fence.after_nil] at hopened
      subst hopened
      rw [Fence.holds_some, Fence.holds_some, Fence.next_of_not_closedBy hopen,
        Fence.next_of_not_closedBy hopen', hrest (Fence.next_of_not_closedBy hopen)]
      rfl

theorem shown_scan_eq {document document' : Text}
    (h : AgreeOutsideCode ((scan document).map text) ((scan document').map text)) :
    shown (scan document) = shown (scan document') := by
  obtain ⟨hlength, hlines⟩ := h
  rw [scan, scan, map_text_ofPieces, map_text_ofPieces] at hlength hlines
  refine shown_ofPieces_eq (by simpa using hlength) fun i piece piece' hpiece hpiece' => ?_
  obtain hsame | ⟨outer, hopened, hopen⟩ :=
    hlines i (content piece) (content piece') (by simp [hpiece]) (by simp [hpiece'])
  · exact .inl hsame
  · refine .inr ⟨outer, ?_, hopen⟩
    rw [Fence.after_eq_foldl, List.map_take]
    exact hopened.foldl_next

end Line

/-! ### Readers -/

namespace Heading

theorem filterMap_ofLine? (lines : List Line) :
    lines.filterMap ofLine? = (Line.shown lines).filterMap ofText? := by
  induction lines with
  | nil => rfl
  | cons line rest ih =>
    by_cases hshown : line.isShown = true
    · have hfenced : ¬ line.fenced = true := by
        simp only [Line.isShown, Bool.and_eq_true, Bool.not_eq_true'] at hshown
        simp [hshown.1]
      have htext : ofLine? line = ofText? line.text := if_neg hfenced
      rw [Line.shown, List.filter_cons_of_pos hshown, List.map_cons, List.filterMap_cons,
        List.filterMap_cons, ih, htext]
      rfl
    · rw [Line.shown, List.filter_cons_of_neg hshown, List.filterMap_cons,
        ofLine?_of_hidden (by simpa using hshown)]
      exact ih

theorem map_heading_all (document : Text) :
    (all document).map PlacedHeading.heading =
      (Line.shown (Line.scan document)).filterMap ofText? := by
  rw [← filterMap_ofLine?, all, List.map_filterMap]
  congr 1
  funext line
  cases ofLine? line <;> rfl

end Heading

/-- Readers do not look into code blocks. Two documents that differ only there have the same
stories, the same entities if they have an entity section at all, and the same headings, and readers
warn of the same in the same order, places aside. -/
theorem Model.ofDocument_ignores_code {document document' : Text}
    (h : Line.AgreeOutsideCode ((Line.scan document).map Line.text)
      ((Line.scan document').map Line.text)) :
    (Story.ofDocument document).unplaced Story.unplaced =
        (Story.ofDocument document').unplaced Story.unplaced ∧
      (Entity.ofDocument? document).map (Findings.unplaced id) =
        (Entity.ofDocument? document').map (Findings.unplaced id) ∧
      (Heading.all document).map PlacedHeading.heading =
        (Heading.all document').map PlacedHeading.heading := by
  have hshown := Line.shown_scan_eq h
  refine ⟨Story.ofDocument_of_shown hshown, Entity.ofDocument?_of_shown hshown, ?_⟩
  rw [Heading.map_heading_all, Heading.map_heading_all, hshown]

/-- A heading and a fence of tildes in a block of grave accents. -/
theorem Model.ofDocument_ignores_code_heading :
    let document := "```\n# Key Entities\n```\n# Key Entities\n- **Cart**: has many Carts\n".toList
    let document' := "```\n~~~\n```\n# Key Entities\n- **Cart**: has many Carts\n".toList
    Line.AgreeOutsideCode ((Line.scan document).map Line.text)
        ((Line.scan document').map Line.text) ∧
      (Story.ofDocument document).unplaced Story.unplaced =
        (Story.ofDocument document').unplaced Story.unplaced ∧
      (Entity.ofDocument? document).map (Findings.unplaced id) =
        (Entity.ofDocument? document').map (Findings.unplaced id) ∧
      (Heading.all document).map PlacedHeading.heading =
        (Heading.all document').map PlacedHeading.heading := by
  intro document document'
  have hagree : Line.AgreeOutsideCode ((Line.scan document).map Line.text)
      ((Line.scan document').map Line.text) := by
    have hlines : (Line.scan document).map Line.text =
        ["```".toList, "# Key Entities".toList, "```".toList, "# Key Entities".toList,
          "- **Cart**: has many Carts".toList] := by decide
    have hlines' : (Line.scan document').map Line.text =
        ["```".toList, "~~~".toList, "```".toList, "# Key Entities".toList,
          "- **Cart**: has many Carts".toList] := by decide
    rw [hlines, hlines']
    refine ⟨rfl, fun i text text' htext htext' => ?_⟩
    rcases i with _ | _ | i
    · exact .inl (Option.some.inj (htext.symm.trans htext'))
    · obtain rfl := Option.some.inj htext
      obtain rfl := Option.some.inj htext'
      refine .inr ⟨⟨'\x60', 3⟩, ⟨[], _, [], rfl, rfl, by decide, List.forall_mem_nil _⟩, ?_, ?_⟩
      · rintro ⟨fence, hfence, -⟩
        have hnone : Fence.ofLine? "# Key Entities".toList = none := by decide
        exact absurd (hnone.symm.trans hfence) (by simp)
      · rintro ⟨fence, hfence, hcloses⟩
        obtain rfl : ⟨'~', 3⟩ = fence := Option.some.inj (Eq.trans (by decide) hfence)
        exact absurd hcloses (by decide)
    · exact .inl (Option.some.inj (htext.symm.trans htext'))
  exact ⟨hagree, ofDocument_ignores_code hagree⟩

end DiagramSync
