import DiagramSync.Document.Heading
import DiagramSync.Proofs.Text.Pieces

/-!
The scan of a document runs over its pieces from left to right. All that it carries along
is the offset and the fence that is open.
-/

namespace DiagramSync

open Text

/-- The fence that is open behind the pieces. -/
def Fence.after (opened : Option Fence) (pieces : List Text) : Option Fence :=
  pieces.foldl (fun opened piece => Fence.next opened (Line.content piece)) opened

@[simp] theorem Fence.after_nil (opened : Option Fence) : Fence.after opened [] = opened := rfl

@[simp] theorem Fence.after_cons (opened : Option Fence) (piece : Text) (rest : List Text) :
    Fence.after opened (piece :: rest) =
      Fence.after (Fence.next opened (Line.content piece)) rest := rfl

theorem Fence.after_append (opened : Option Fence) (a b : List Text) :
    Fence.after opened (a ++ b) = Fence.after (Fence.after opened a) b := by
  simp [Fence.after]

theorem Fence.next_of_no_fence {line : Text} (h : Fence.ofLine? line = none)
    (opened : Option Fence) : Fence.next opened line = opened := by
  cases opened <;> simp [Fence.next, h]

@[simp] theorem Fence.holds_some (outer : Fence) (line : Text) :
    Fence.holds (some outer) line = true := rfl

/-- Only what the pieces say counts. -/
theorem Fence.after_congr {pieces pieces' : List Text}
    (h : pieces'.map Line.content = pieces.map Line.content) (opened : Option Fence) :
    Fence.after opened pieces' = Fence.after opened pieces := by
  have hmap : ∀ pieces : List Text,
      Fence.after opened pieces = (pieces.map Line.content).foldl Fence.next opened := by
    intro pieces
    rw [Fence.after, List.foldl_map]
  rw [hmap, hmap, h]

namespace Line

theorem ofPieces_append (opened : Option Fence) (start : Nat) (a b : List Text) :
    ofPieces opened start (a ++ b) =
      ofPieces opened start a ++ ofPieces (Fence.after opened a) (start + size a.flatten) b := by
  induction a generalizing opened start with
  | nil => simp [ofPieces]
  | cons piece rest ih => simp [ofPieces, ih, Nat.add_assoc]

theorem map_text_ofPieces (opened : Option Fence) (start : Nat) (pieces : List Text) :
    (ofPieces opened start pieces).map Line.text = pieces.map content := by
  induction pieces generalizing opened start with
  | nil => rfl
  | cons piece rest ih => simp [ofPieces, ih]

/-- Each line comes from a piece, at the place where the pieces in front of it end. -/
theorem mem_ofPieces {opened : Option Fence} {start : Nat} {pieces : List Text} {line : Line}
    (h : line ∈ ofPieces opened start pieces) :
    ∃ before piece after, pieces = before ++ piece :: after ∧ line.text = content piece ∧
      line.start = start + size before.flatten ∧
      line.stop = start + size before.flatten + size piece ∧
      line.fenced = Fence.holds (Fence.after opened before) (content piece) := by
  induction pieces generalizing opened start with
  | nil => simp [ofPieces] at h
  | cons first rest ih =>
    rw [ofPieces, List.mem_cons] at h
    obtain rfl | h := h
    · exact ⟨[], first, rest, by simp⟩
    · obtain ⟨before, piece, after, rfl, htext, hstart, hstop, hfenced⟩ := ih h
      refine ⟨first :: before, piece, after, rfl, htext, ?_, ?_, hfenced⟩
      · rw [hstart]
        simp [Nat.add_assoc]
      · rw [hstop]
        simp [Nat.add_assoc]

/-- Readers pass over blank lines and over the lines of code blocks. -/
def isShown (line : Line) : Bool :=
  !line.fenced && !line.isBlank

/-! ### Lines put together -/

/-- The line without its place. -/
def unplaced (line : Line) : Line :=
  { line with start := 0, stop := 0 }

theorem fence?_of_head? {text : Text}
    (h : ∀ c ∈ text.head?, isWhite c = false ∧ Fence.isMarker c = false) :
    Fence.ofLine? text = none := by
  cases text with
  | nil => rfl
  | cons c rest =>
    obtain ⟨hwhite, hmarker⟩ := h c rfl
    have htrim : trimStart (c :: rest) = c :: rest :=
      List.dropWhile_cons_of_neg (by simp [hwhite])
    simp [Fence.ofLine?, htrim, hmarker]

theorem heading?_of_head? {text : Text} (h : ∀ c ∈ text.head?, c ≠ ' ' ∧ c ≠ '#') :
    Heading.ofText? text = none := by
  cases text with
  | nil => rfl
  | cons c rest =>
    obtain ⟨hspace, hmark⟩ := h c rfl
    simp [Heading.ofText?, hspace, hmark]

/-- Lines of which none is the mark of a code block are scanned as they are. -/
theorem scan_feeds {lines : List Text} (hfeed : ∀ line ∈ lines, '\n' ∉ line)
    (hfence : ∀ line ∈ lines, Fence.ofLine? (dropReturn line) = none) :
    (scan (lines.flatMap fun line => line ++ ['\n'])).map unplaced =
      lines.map fun line => ⟨dropReturn line, 0, 0, false⟩ := by
  have hscan : ∀ start, (ofPieces none start (lines.map fun line => line ++ ['\n'])).map unplaced =
      lines.map fun line => ⟨dropReturn line, 0, 0, false⟩ := by
    clear hfeed
    induction lines with
    | nil => exact fun _ => rfl
    | cons line others ih =>
      rw [List.forall_mem_cons] at hfence
      intro start
      simp only [List.map_cons, ofPieces, unplaced, content_append_feed, Fence.holds, hfence.1,
        Fence.next_of_no_fence hfence.1, ih hfence.2]
      rfl
  have hpieces := pieces_lines hfeed []
  rw [List.append_nil, show pieces [] = [] from rfl, List.append_nil] at hpieces
  rw [scan, hpieces]
  exact hscan 0

end Line

end DiagramSync
