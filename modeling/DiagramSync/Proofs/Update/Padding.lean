import DiagramSync.Proofs.Diagram.Plain
import DiagramSync.Proofs.Document.Padding
import DiagramSync.Proofs.Text.Words
import DiagramSync.Proofs.Update.Order
import DiagramSync.Proofs.Update.Revised

/-!
New regions go into a document without being noticed: their lines are inert, they leave no
fence open, and they go in where no entry goes on.
-/

namespace DiagramSync

open Text

/-! ### Inert blocks -/

/-- The lines of the block are inert, and it leaves no fence open. -/
structure InertBlock (block : Text) : Prop where
  whole : Whole block
  inert : ∀ opened start, ∀ line ∈ Line.ofPieces opened start (pieces block), line.Inert
  no_fence : Fence.after none (pieces block) = none

namespace InertBlock

theorem nil : InertBlock [] :=
  ⟨whole_nil, by simp [pieces, Line.ofPieces], rfl⟩

theorem feed : InertBlock ['\n'] := by
  refine ⟨whole_feed, fun opened start line hline => ?_, by decide⟩
  have hpieces : pieces ['\n'] = [['\n']] := rfl
  have hcontent : Line.content ['\n'] = [] := by decide
  rw [hpieces, Line.ofPieces, Line.ofPieces, List.mem_singleton] at hline
  subst hline
  right
  left
  exact hcontent

theorem append {a b : Text} (ha : InertBlock a) (hb : InertBlock b) : InertBlock (a ++ b) := by
  refine ⟨ha.whole.append hb.whole, fun opened start => ?_, ?_⟩
  · rw [pieces_append ha.whole, Line.ofPieces_append, List.forall_mem_append]
    exact ⟨ha.inert _ _, hb.inert _ _⟩
  · rw [pieces_append ha.whole, Fence.after_append, ha.no_fence, hb.no_fence]

end InertBlock

/-! ### New regions -/

/-- The line that opens a code block. -/
def openingMark : Text :=
  Update.fenceMark ++ "mermaid\n".toList

/-- The line that closes it. -/
def closingMark : Text :=
  Update.fenceMark ++ ['\n']

namespace Diagram.Plain

variable {diagram : Diagram}

/-- The markup is made of whole lines, so nothing is put between it and the closing mark. -/
theorem codeBlock_eq (h : diagram.Plain) : Update.codeBlock diagram.markup =
    openingMark ++ (diagram.markup.toList ++ closingMark) := by
  obtain ⟨first, rest, -, hmarkup⟩ := h
  have hwhole : ∀ lines : List Text, Whole (lines.flatMap fun line => line ++ ['\n']) := by
    intro lines
    induction lines with
    | nil => exact whole_nil
    | cons line others ih => exact (whole_append_feed line).append ih
  have hends : Text.endsWith ['\n'] diagram.markup.toList = true := by
    rw [endsWith_feed_iff, hmarkup]
    exact ⟨by simp, hwhole _⟩
  rw [Update.codeBlock, Update.endLine, if_pos hends]
  simp [openingMark, closingMark]

/-- The pieces of the block: plain lines between the marks of the code block. -/
theorem exists_pieces_codeBlock (h : diagram.Plain) :
    ∃ lines : List Text, (∀ line ∈ lines, PlainLine line) ∧
      pieces (Update.codeBlock diagram.markup) = openingMark ::
        (lines.map (fun line => line ++ ['\n']) ++ [closingMark]) := by
  have hblock := h.codeBlock_eq
  obtain ⟨first, rest, hlines, hmarkup⟩ := h
  refine ⟨first :: rest, hlines, ?_⟩
  rw [hblock, hmarkup, pieces_cons_of_whole (by decide) (by decide),
    pieces_lines (fun line hline => (hlines line hline).unbroken.feed_not_mem)]
  rfl

theorem codeBlock_inj {diagram' : Diagram} (h : diagram.Plain) (h' : diagram'.Plain) :
    Update.codeBlock diagram.markup = Update.codeBlock diagram'.markup ↔
      diagram.markup = diagram'.markup := by
  refine ⟨fun hblocks => ?_, fun hmarkup => by rw [hmarkup]⟩
  rw [h.codeBlock_eq, h'.codeBlock_eq] at hblocks
  exact String.toList_injective
    (List.append_cancel_right (List.append_cancel_left hblocks))

theorem unmarked (h : diagram.Plain) : diagram.Unmarked := by
  obtain ⟨lines, hlines, hpieces⟩ := h.exists_pieces_codeBlock
  intro line hline
  have hmem : line.text ∈ (Line.scan (Update.codeBlock diagram.markup)).map Line.text :=
    List.mem_map_of_mem hline
  rw [Line.scan, Line.map_text_ofPieces, hpieces] at hmem
  simp only [List.map_cons, List.map_append, List.map_map, List.mem_cons, List.mem_append,
    List.mem_map, List.map_nil, List.not_mem_nil, or_false] at hmem
  obtain hopen | ⟨plain, hplain, htext⟩ | hclose := hmem
  · rw [hopen]
    decide
  · rw [← htext, Function.comp_apply, Line.content_of_unbroken (hlines plain hplain).unbroken]
    exact (hlines plain hplain).no_marker
  · rw [hclose]
    decide

end Diagram.Plain

theorem fenced_plainLines {lines : List Text} (h : ∀ line ∈ lines, PlainLine line) (outer : Fence)
    (start : Nat) :
    (∀ line ∈ Line.ofPieces (some outer) start (lines.map fun line => line ++ ['\n']),
      line.fenced = true) ∧
    Fence.after (some outer) (lines.map fun line => line ++ ['\n']) = some outer := by
  induction lines generalizing start with
  | nil => simp [Line.ofPieces]
  | cons line rest ih =>
    rw [List.forall_mem_cons] at h
    have hnext : Fence.next (some outer) (Line.content (line ++ ['\n'])) = some outer := by
      rw [Line.content_of_unbroken h.1.unbroken, Fence.next_of_no_fence h.1.no_fence]
    rw [List.map_cons, Line.ofPieces, Fence.after_cons, hnext, List.forall_mem_cons]
    exact ⟨⟨rfl, (ih h.2 _).1⟩, (ih h.2 0).2⟩

theorem next_openingMark (opened : Option Fence) :
    Fence.next opened (Line.content openingMark) = some (opened.getD ⟨'\x60', 3⟩) := by
  have hfence : Fence.ofLine? (Line.content openingMark) = some ⟨'\x60', 3⟩ := by decide
  cases opened with
  | none => exact hfence
  | some outer =>
    have hcloses : outer.closes ⟨'\x60', 3⟩ (Line.content openingMark) = false := by
      rw [Fence.closes, Bool.and_eq_false_iff]
      right
      decide
    simp [Fence.next, hfence, hcloses]

theorem marker_content (side : Side) (kind : Kind) :
    (Line.content (Update.markerLine side kind.name)).head? = some '<' ∧
      Fence.ofLine? (Line.content (Update.markerLine side kind.name)) = none := by
  cases side <;> cases kind <;> decide

/-- All lines of a code block are fenced, and the fence behind it hangs on the one in front of it
alone. -/
theorem Diagram.Plain.fenced_codeBlock {diagram : Diagram} (h : diagram.Plain)
    (opened : Option Fence) (start : Nat) :
    (∀ line ∈ Line.ofPieces opened start (pieces (Update.codeBlock diagram.markup)),
      line.fenced = true) ∧
    Fence.after opened (pieces (Update.codeBlock diagram.markup)) =
      Fence.next (some (opened.getD ⟨'\x60', 3⟩)) (Line.content closingMark) := by
  obtain ⟨lines, hlines, hblock⟩ := h.exists_pieces_codeBlock
  have hopening : Fence.holds opened (Line.content openingMark) = true := by
    rw [Fence.holds, Bool.or_eq_true]
    right
    decide
  have hafter : Fence.after opened
      (openingMark :: lines.map fun line => line ++ ['\n']) =
        some (opened.getD ⟨'\x60', 3⟩) := by
    rw [Fence.after_cons, next_openingMark, (fenced_plainLines hlines _ 0).2]
  rw [hblock, ← List.cons_append, Line.ofPieces_append, Fence.after_append, hafter]
  refine ⟨List.forall_mem_append.mpr ⟨?_, ?_⟩, rfl⟩
  · rw [Line.ofPieces, next_openingMark, List.forall_mem_cons]
    exact ⟨hopening, (fenced_plainLines hlines _ _).1⟩
  · simp [Line.ofPieces, Fence.holds_some]

theorem Diagram.Plain.inertBlock {diagram : Diagram} (h : diagram.Plain) :
    InertBlock (Update.regionBlock diagram.kind.name (Update.codeBlock diagram.markup)) := by
  obtain ⟨hbegin, hbeginFence⟩ := marker_content .begins diagram.kind
  obtain ⟨hend, hendFence⟩ := marker_content .ends diagram.kind
  have hlast : pieces (Update.markerLine .ends diagram.kind.name) =
      [Update.markerLine .ends diagram.kind.name] := isPiece_markerLine .ends diagram.kind
  have hpieces : pieces (Update.regionBlock diagram.kind.name
      (Update.codeBlock diagram.markup)) =
      Update.markerLine .begins diagram.kind.name ::
        (pieces (Update.codeBlock diagram.markup) ++
          [Update.markerLine .ends diagram.kind.name]) := by
    rw [Update.regionBlock, List.append_assoc,
      pieces_cons_of_whole (isPiece_markerLine _ _) (whole_markerLine _ _),
      pieces_append (whole_codeBlock _), hlast]
  refine ⟨((whole_markerLine _ _).append (whole_codeBlock _)).append (whole_markerLine _ _),
    fun opened start => ?_, ?_⟩
  · simp only [hpieces, Line.ofPieces, Line.ofPieces_append, Fence.next_of_no_fence hbeginFence,
      List.forall_mem_cons, List.forall_mem_append, Line.Inert]
    refine ⟨.inr (.inr hbegin), fun line hline => .inl ((h.fenced_codeBlock _ _).1 line hline), ?_⟩
    exact ⟨.inr (.inr hend), by simp⟩
  · have hclosing : Fence.next (some ⟨'\x60', 3⟩) (Line.content closingMark) = none := by decide
    rw [hpieces, Fence.after_cons, Fence.next_of_no_fence hbeginFence, Fence.after_append,
      (h.fenced_codeBlock _ 0).2, Option.getD_none, hclosing, Fence.after_cons,
      Fence.next_of_no_fence hendFence, Fence.after_nil]

/-- With the line feeds behind it, what is kept is made of whole lines that say the same. -/
theorem exists_completed {kept : List Text} (hkept : pieces kept.flatten = kept) {written : Text}
    (hwhole : Whole written) :
    ∃ kept' blanks, kept'.map Line.content = kept.map Line.content ∧
      pieces kept'.flatten = kept' ∧ Whole kept'.flatten ∧ InertBlock blanks ∧
      kept.flatten ++ Update.separator (written ++ kept.flatten) = kept'.flatten ++ blanks := by
  obtain ⟨hboth, hseparator⟩ | ⟨hpart, hseparator⟩ :=
    Update.separator_cases (written ++ kept.flatten)
  · have hwhole' : Whole kept.flatten := by
      by_cases hnil : kept.flatten = []
      · rw [hnil]
        exact whole_nil
      · exact (whole_append_iff hnil).mp hboth
    refine ⟨kept, _, rfl, hkept, hwhole', ?_, rfl⟩
    obtain hnone | hfeed := hseparator
    · rw [hnone]
      exact .nil
    · rw [hfeed]
      exact .feed
  · have hpart' : ¬ Whole kept.flatten := fun hrest => hpart (hwhole.append hrest)
    obtain ⟨init, last, hinit, hlast, hcomplete⟩ := pieces_complete hpart'
    have hsame : kept = init ++ [last] := hkept.symm.trans hinit
    have hflatten : kept.flatten ++ ['\n'] = (init ++ [last ++ ['\n']]).flatten := by
      simp [hsame]
    refine ⟨init ++ [last ++ ['\n']], ['\n'], ?_, ?_, ?_, .feed, ?_⟩
    · rw [hsame, List.map_append, List.map_append, List.map_singleton, List.map_singleton,
        Line.content_complete hlast]
    · rw [← hflatten, hcomplete]
    · rw [← hflatten]
      exact whole_append_feed _
    · rw [hseparator, ← hflatten, List.append_assoc]
      rfl

/-! ### Seams -/

/-- Inert lines can go in at the offset: it is the end of the document, or no code block goes on
there and the line in front of it or the one behind it ends an entry. -/
def IsSeam (document : Text) (offset : Nat) : Prop :=
  ∃ before after, pieces document = before ++ after ∧ size before.flatten = offset ∧
    (after = [] ∨ Fence.after none before = none ∧
      (EndedAfter False (Line.ofPieces none 0 before) ∨
        ∀ next ∈ (Line.ofPieces none offset after).head?, next.EndsEntry))

theorem isSeam_size (document : Text) : IsSeam document (size document) :=
  ⟨pieces document, [], by simp, by rw [flatten_pieces], .inl rfl⟩

/-- A heading in the first column has a seam on either side. -/
theorem isSeam_of_headingLine {document : Text} {line : Line} (h : HeadingLine document line)
    (hcolumn : line.beginsIndented = false) :
    IsSeam document line.start ∧ IsSeam document line.stop := by
  have hends := Line.endsEntry_of_heading h.2 hcolumn
  obtain ⟨before, piece, after, hpieces, htext, hstart, hstop, hfenced⟩ := Line.mem_ofPieces h.1
  rw [Nat.zero_add] at hstart hstop
  have hholds : Fence.holds (Fence.after none before) (Line.content piece) = false :=
    hfenced.symm.trans hends.1
  simp only [Fence.holds, Bool.or_eq_false_iff, Option.isSome_eq_false_iff,
    Option.isNone_iff_eq_none] at hholds
  obtain ⟨hbefore, hpiece⟩ := hholds
  obtain rfl : line = ⟨Line.content piece, size before.flatten,
      size before.flatten + size piece, Fence.holds none (Line.content piece)⟩ := by
    cases line
    rw [Line.mk.injEq]
    exact ⟨htext, hstart, hstop, by rw [← hbefore]; exact hfenced⟩
  refine ⟨⟨before, piece :: after, hpieces, rfl, .inr ⟨hbefore, .inr ?_⟩⟩,
    ⟨before ++ [piece], after, by simp [hpieces], by simp, .inr ⟨?_, .inl ?_⟩⟩⟩
  · simpa [Line.ofPieces] using hends
  · rw [Fence.after_append, hbefore, Fence.after_cons, Fence.next_of_no_fence hpiece,
      Fence.after_nil]
  · rw [Line.ofPieces_append, endedAfter_append, hbefore, Nat.zero_add]
    exact hends

theorem isSeam_anchorOffset {document : Text}
    (hcolumn : ∀ line, HeadingLine document line → line.beginsIndented = false)
    (regions : List Region) (anchor : Anchor) :
    IsSeam document (Update.anchorOffset document regions anchor) := by
  obtain h | ⟨line, hline, h | h⟩ := Update.anchorOffset_cases document regions anchor
  · rw [h]
    exact isSeam_size document
  · rw [h]
    exact (isSeam_of_headingLine hline (hcolumn line hline)).1
  · rw [h]
    exact (isSeam_of_headingLine hline (hcolumn line hline)).2

/-- A part of a document that reaches as far as the front begins with it. -/
theorem exists_kept_of_size_le {front rest before after : List Text}
    (hpieces : front ++ rest = before ++ after) (hne : ∀ piece ∈ front, piece ≠ [])
    (hle : size front.flatten ≤ size before.flatten) :
    ∃ kept, before = front ++ kept ∧ rest = kept ++ after := by
  obtain h | ⟨middle, rfl, rfl⟩ := List.append_eq_append_iff.mp hpieces
  · exact h
  · have hnil : middle = [] := by
      cases middle with
      | nil => rfl
      | cons piece others =>
        have hpiece : size piece ≠ 0 := by simpa using hne piece (by simp)
        simp only [List.flatten_append, List.flatten_cons, size_append] at hle
        omega
    exact ⟨[], by simp [hnil], by simp [hnil]⟩

theorem ne_nil_of_mem_front {document : Text} {front rest : List Text}
    (hpieces : pieces document = front ++ rest) : ∀ piece ∈ front, piece ≠ [] := by
  intro piece hpiece
  have hmem : piece ∈ pieces document := by
    rw [hpieces]
    exact List.mem_append_left rest hpiece
  exact (isPiece_of_mem hmem).ne_nil

namespace Update

/-- An inert block goes in behind whole lines, with line feeds around it. -/
theorem exists_carryOut_insert {document : Text} {front kept after : List Text}
    (hpieces : pieces document = front ++ (kept ++ after)) {written : Text}
    (hwhole : Whole written) {block : Text} (hblock : InertBlock block) (edits : List Edit) :
    ∃ kept' padding, kept'.map Line.content = kept.map Line.content ∧
      pieces kept'.flatten = kept' ∧ Whole kept'.flatten ∧ InertBlock padding ∧
      carryOut document written (size front.flatten)
          (.insert (size (front ++ kept).flatten) block :: edits) =
        carryOut document (written ++ (kept'.flatten ++ padding)) (size (front ++ kept).flatten)
          edits := by
  have hkept : pieces kept.flatten = kept := pieces_flatten_prefix (pieces_flatten_suffix hpieces)
  obtain ⟨kept', blanks, hcontent, hkept', hwhole', hblanks, hcompleted⟩ :=
    exists_completed hkept hwhole
  have hslice : slice (size front.flatten) (size (front ++ kept).flatten) document =
      kept.flatten := by
    have hdocument : document = front.flatten ++ (kept.flatten ++ after.flatten) := by
      rw [← List.flatten_append, ← List.flatten_append, ← hpieces, flatten_pieces]
    rw [List.flatten_append, size_append, hdocument, slice_append]
  let gap : Text := if size (front ++ kept).flatten < size document then ['\n'] else []
  have hgap : InertBlock gap := by
    simp only [gap]
    split
    · exact .feed
    · exact .nil
  have hstep : written ++ kept.flatten ++ separator (written ++ kept.flatten) ++ block ++ gap =
      written ++ (kept'.flatten ++ (blanks ++ block ++ gap)) := by
    rw [List.append_assoc written, hcompleted]
    simp only [List.append_assoc]
  refine ⟨kept', blanks ++ block ++ gap, hcontent, hkept', hwhole',
    (hblanks.append hblock).append hgap, ?_⟩
  rw [← hstep, carryOut, hslice]

/-- The induction is on the edits. What is written so far is made of whole lines, and the fence
that is open behind it is the one behind the front, as long as anything is left. -/
theorem exists_carryOut_padded {document : Text} {edits : List Edit} {front rest : List Text}
    (hpieces : pieces document = front ++ rest) {written : Text} (hwhole : Whole written)
    {opened : Option Fence} (hopened : rest ≠ [] → opened = Fence.after none front) (start : Nat)
    (hedits : ∀ edit ∈ edits, ∃ offset block, edit = .insert offset block ∧ InertBlock block ∧
      IsSeam document offset)
    (hle : ∀ edit ∈ edits, size front.flatten ≤ edit.offset)
    (hsorted : edits.Pairwise fun first second => first.offset ≤ second.offset) :
    ∃ tail, carryOut document written (size front.flatten) edits = written ++ tail ∧
      Padded (EndedAfter False (Line.ofPieces none 0 front))
        (Line.ofPieces (Fence.after none front) (size front.flatten) rest)
        (Line.ofPieces opened start (pieces tail)) := by
  induction edits generalizing front rest written opened start with
  | nil =>
    have hdocument : document = front.flatten ++ rest.flatten := by
      rw [← List.flatten_append, ← hpieces, flatten_pieces]
    refine ⟨rest.flatten, ?_, ?_⟩
    · rw [carryOut, hdocument, dropBytes_size_append]
    · rw [pieces_flatten_suffix hpieces]
      simpa using Padded.keep_pieces hopened rfl (.nil _)
  | cons edit edits ih =>
    rw [List.forall_mem_cons] at hedits hle
    rw [List.pairwise_cons] at hsorted
    obtain ⟨⟨offset, block, rfl, hblock, before, after, hsplit, rfl, hplace⟩, hedits⟩ := hedits
    obtain ⟨kept, rfl, rfl⟩ := exists_kept_of_size_le (hpieces.symm.trans hsplit)
      (ne_nil_of_mem_front hpieces) hle.1
    obtain ⟨kept', padding, hcontent, hkept', hwhole', hpadding, hstep⟩ :=
      exists_carryOut_insert hpieces hwhole hblock edits
    have hfence : after ≠ [] → Fence.after opened (kept' ++ pieces padding) =
        Fence.after none (front ++ kept) := by
      intro hne
      obtain ⟨hnone, -⟩ := hplace.resolve_left hne
      rw [Fence.after_append, Fence.after_congr hcontent, hopened (by simp [hne]),
        ← Fence.after_append none front kept, hnone, hpadding.no_fence]
    obtain ⟨tail, htail, hpadded⟩ := ih hsplit (hwhole.append (hwhole'.append hpadding.whole))
      hfence (start + size kept'.flatten + size padding) hedits hsorted.1 hsorted.2
    refine ⟨kept'.flatten ++ padding ++ tail, ?_, ?_⟩
    · rw [hstep, htail]
      simp only [List.append_assoc]
    · have hpieces' : pieces (kept'.flatten ++ padding ++ tail) =
          kept' ++ (pieces padding ++ pieces tail) := by
        rw [List.append_assoc, pieces_append hwhole', pieces_append hpadding.whole, hkept']
      have hstart : size (front ++ kept).flatten = size front.flatten + size kept.flatten := by
        rw [List.flatten_append, size_append]
      rw [Line.ofPieces_append none, endedAfter_append, Fence.after_append none, Nat.zero_add]
        at hpadded hplace
      rw [Fence.after_append, hstart] at hpadded
      rw [hstart] at hplace
      rw [hpieces', Line.ofPieces_append, Line.ofPieces_append opened, Line.ofPieces_append,
        flatten_pieces]
      apply Padded.keep_pieces (fun hne => hopened (by simp [hne])) hcontent
      apply Padded.pad_append (hpadding.inert _ _) _ hpadded
      obtain rfl | ⟨hnone, hends⟩ := hplace
      · right
        simp [Line.ofPieces]
      · rw [hnone]
        exact hends

/-- In a document without regions whose headings are in the first column, the lines of the
diagrams go in without being noticed. -/
theorem padded_ofDiagrams {document : Text}
    (hcolumn : ∀ line, HeadingLine document line → line.beginsIndented = false)
    (anchor : Kind → Anchor) {diagrams : List Diagram}
    (hplain : ∀ diagram ∈ diagrams, diagram.Plain) :
    Padded False (Line.scan document)
      (Line.scan (ofDiagrams document [] anchor diagrams).text) := by
  let planned := plannedEdits document [] anchor diagrams
  have hedits : ∀ edit ∈ (inOrder planned).map Prod.snd, ∃ offset block,
      edit = .insert offset block ∧ InertBlock block ∧ IsSeam document offset := by
    intro edit hedit
    obtain ⟨pair, hpair, rfl⟩ := List.mem_map.mp hedit
    obtain ⟨diagram, hmem, hplan⟩ := List.mem_filterMap.mp (mem_inOrder.mp hpair)
    rw [plan_of_none rfl] at hplan
    obtain rfl := Option.some.inj hplan
    exact ⟨_, _, rfl, (hplain diagram hmem).inertBlock, isSeam_anchorOffset hcolumn _ _⟩
  have hsorted : ((inOrder planned).map Prod.snd).Pairwise
      fun first second => first.offset ≤ second.offset := by
    rw [List.pairwise_map]
    exact (pairwise_sublist_inOrder planned).imp And.left
  obtain ⟨tail, htail, hpadded⟩ := exists_carryOut_padded (List.nil_append _).symm whole_nil
    (fun _ => rfl) 0 hedits (fun _ _ => Nat.zero_le _) hsorted
  rw [text_ofDiagrams, Line.scan, Line.scan]
  have htext : carryOut document [] 0 ((inOrder planned).map Prod.snd) = tail := htail
  rw [htext]
  exact hpadded

end Update

end DiagramSync
