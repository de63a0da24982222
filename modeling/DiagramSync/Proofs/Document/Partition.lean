import DiagramSync.Proofs.Document.Visible
import DiagramSync.Proofs.Region.Slot

/-!
The lines of a document take up all of its bytes, one behind another. A document of whole lines
that closes its code blocks has the same lines whatever follows it, and what follows has the lines
that it has on its own, further behind.
-/

namespace DiagramSync

open Text

/-- The fence that is open at the end of a document. -/
def Fence.openAtEnd (document : Text) : Option Fence :=
  Fence.after none (pieces document)

namespace Line

/-! ### All bytes -/

/-- The lines take up the bytes from `start` to `stop`: each begins where the one in front of it
ends, and none is empty. -/
def Tile (start stop : Nat) : List Line → Prop
  | [] => start = stop
  | line :: rest => line.start = start ∧ line.start < line.stop ∧ Tile line.stop stop rest

/-- The induction is on the pieces. Each line takes up the bytes of its piece. -/
theorem tile_ofPieces {pieces : List Text} (h : ∀ piece ∈ pieces, piece ≠ [])
    (opened : Option Fence) (start : Nat) :
    Tile start (start + size pieces.flatten) (ofPieces opened start pieces) := by
  induction pieces generalizing opened start with
  | nil => exact (Nat.add_zero start).symm
  | cons piece rest ih =>
    rw [List.forall_mem_cons] at h
    have hsize : size piece ≠ 0 := fun hzero => h.1 (size_eq_zero.mp hzero)
    have hrest := ih h.2 (Fence.next opened (content piece)) (start + size piece)
    rw [List.flatten_cons, size_append, ← Nat.add_assoc]
    refine ⟨rfl, ?_, hrest⟩
    dsimp only
    omega

theorem tile_scan (document : Text) : Tile 0 (size document) (scan document) := by
  have hne : ∀ piece ∈ pieces document, piece ≠ [] :=
    fun _ hpiece => (isPiece_of_mem hpiece).ne_nil
  have htile := tile_ofPieces hne none 0
  rwa [flatten_pieces, Nat.zero_add] at htile

/-- The bytes of a line are its text and what ends the line. -/
theorem exists_slice?_of_mem_scan {document : Text} {line : Line} (h : line ∈ scan document) :
    '\n' ∉ line.text ∧ ∃ ending, slice? line.start line.stop document = some (line.text ++ ending) ∧
      EndsLine line.text ending (dropBytes line.stop document) := by
  obtain ⟨before, ending, after, rfl, -, hfeed, hends, hstart, hstop⟩ := exists_split_of_mem_scan h
  refine ⟨hfeed, ending, ?_, ?_⟩
  · rw [hstart, hstop, ← List.append_assoc line.text, slice?_append]
  · have hbefore : before ++ (line.text ++ (ending ++ after)) =
        (before ++ (line.text ++ ending)) ++ after := by
      simp only [List.append_assoc]
    rw [hstop, ← size_append, hbefore, dropBytes_size_append]
    exact hends

/-! ### Documents in front of others -/

theorem scan_append {a b : Text} (hwhole : Whole a) (hclosed : Fence.openAtEnd a = none) :
    scan (a ++ b) = scan a ++ (scan b).map (shift (size a)) := by
  rw [scan, pieces_append hwhole, ofPieces_append, ← Fence.openAtEnd, hclosed, flatten_pieces,
    Nat.zero_add, ← Nat.add_zero (size a), ofPieces_shift]
  rfl

/-! ### The lines of a document -/

/-- The lines of a document take up all of its bytes, one behind another, each by its text and what
ends it. Where a document of whole lines leaves no fence open, what follows it is scanned as a
document of its own. -/
theorem scan_partitions :
    (∀ document, Tile 0 (size document) (scan document) ∧ ∀ line ∈ scan document,
      '\n' ∉ line.text ∧ ∃ ending,
        slice? line.start line.stop document = some (line.text ++ ending) ∧
        EndsLine line.text ending (dropBytes line.stop document)) ∧
    ∀ a b, Whole a → Fence.openAtEnd a = none →
      scan (a ++ b) = scan a ++ (scan b).map (shift (size a)) := by
  constructor
  · intro document
    exact ⟨tile_scan document, fun line hline => exists_slice?_of_mem_scan hline⟩
  · intro a b hwhole hclosed
    exact scan_append hwhole hclosed

/-- A code block that tildes end, although grave accents stand in it, and a last line with nothing
but a carriage return behind it. -/
theorem scan_partitions_fence :
    let a := "~~~~\r\n\x60\x60\x60\n~~~~\n".toList
    let b := "é\r".toList
    Whole a ∧ Fence.openAtEnd a = none ∧
      scan (a ++ b) = scan a ++ (scan b).map (shift (size a)) ∧
      (⟨['é'], 15, 18, false⟩ : Line) ∈ scan (a ++ b) ∧
      ∃ ending, slice? 15 18 (a ++ b) = some (['é'] ++ ending) ∧
        EndsLine ['é'] ending (dropBytes 18 (a ++ b)) := by
  intro a b
  have hwhole : Whole a := by decide
  have hclosed : Fence.openAtEnd a = none := by decide
  have hline : (⟨['é'], 15, 18, false⟩ : Line) ∈ scan (a ++ b) := by decide
  obtain ⟨hbytes, hcompose⟩ := scan_partitions
  exact ⟨hwhole, hclosed, hcompose a b hwhole hclosed, hline, ((hbytes _).2 _ hline).2⟩

end Line

end DiagramSync
