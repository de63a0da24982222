import DiagramSync.Proofs.Document.Scan

/-!
The places of the lines of a document: they begin one behind another, and what is in front of one
of them is a document with the lines in front of it.
-/

namespace DiagramSync

open Text

namespace Line

theorem exists_of_ofPieces_eq {opened : Option Fence} {start : Nat} {pieces : List Text}
    {before after : List Line} {line : Line}
    (h : ofPieces opened start pieces = before ++ line :: after) :
    ∃ a piece b, pieces = a ++ piece :: b ∧ before = ofPieces opened start a ∧
      line.start = start + size a.flatten := by
  induction before generalizing opened start pieces with
  | nil =>
    cases pieces with
    | nil => simp [ofPieces] at h
    | cons piece rest =>
      obtain ⟨rfl, -⟩ := List.cons.inj h
      exact ⟨[], piece, rest, rfl, rfl, by simp⟩
  | cons first before ih =>
    cases pieces with
    | nil => simp [ofPieces] at h
    | cons piece rest =>
      obtain ⟨rfl, hrest⟩ := List.cons.inj h
      obtain ⟨a, found, b, rfl, rfl, hstart⟩ := ih hrest
      exact ⟨piece :: a, found, b, rfl, rfl, by simp [hstart, Nat.add_assoc]⟩

theorem scan_takeBytes {document : Text} {before after : List Line} {line : Line}
    (h : scan document = before ++ line :: after) :
    scan (takeBytes line.start document) = before := by
  obtain ⟨a, piece, b, hpieces, rfl, hstart⟩ := exists_of_ofPieces_eq h
  have hdocument : document = a.flatten ++ (piece :: b).flatten := by
    rw [← flatten_pieces document, hpieces, List.flatten_append]
  have htake : takeBytes line.start document = a.flatten := by
    rw [hstart, Nat.zero_add]
    conv_lhs => rw [hdocument]
    exact takeBytes_size_append _ _
  rw [htake, scan, pieces_flatten_prefix hpieces]

theorem pairwise_start_ofPieces {pieces : List Text} (h : ∀ piece ∈ pieces, piece ≠ [])
    (opened : Option Fence) (start : Nat) :
    (ofPieces opened start pieces).Pairwise fun first second => first.start < second.start := by
  induction pieces generalizing opened start with
  | nil => exact List.Pairwise.nil
  | cons piece rest ih =>
    rw [List.forall_mem_cons] at h
    rw [ofPieces, List.pairwise_cons]
    refine ⟨fun line hline => ?_, ih h.2 _ _⟩
    obtain ⟨before, other, after, -, -, hstart, -⟩ := mem_ofPieces hline
    have hsize : size piece ≠ 0 := fun hzero => h.1 (size_eq_zero.mp hzero)
    dsimp only
    omega

theorem pairwise_start_scan (document : Text) :
    (scan document).Pairwise fun first second => first.start < second.start :=
  pairwise_start_ofPieces (fun _ hpiece => (isPiece_of_mem hpiece).ne_nil) none 0

theorem nodup_span_scan (document : Text) : ((scan document).map span).Nodup := by
  rw [List.Nodup, List.pairwise_map]
  apply (pairwise_start_scan document).imp
  intro first second hlt hspan
  have hstart : first.start = second.start := congrArg Span.start hspan
  omega

theorem start_le_stop {document : Text} {line : Line} (h : line ∈ Line.scan document) :
    line.start ≤ line.stop := by
  obtain ⟨before, piece, after, -, -, hstart, hstop, -⟩ := mem_ofPieces h
  omega

end Line

namespace Text

theorem IsLineEnd.le_or_le {document : Text} {offset : Nat} (h : IsLineEnd document offset)
    {line : Line} (hline : line ∈ Line.scan document) :
    offset ≤ line.start ∨ line.stop ≤ offset := by
  obtain ⟨a, b, hpieces, rfl⟩ := h
  obtain ⟨before, piece, after, hsplit, -, hstart, hstop, -⟩ := Line.mem_ofPieces hline
  rw [Nat.zero_add] at hstart hstop
  rw [hpieces] at hsplit
  obtain ⟨middle, rfl, -⟩ | ⟨middle, rfl, hmiddle⟩ := List.append_eq_append_iff.mp hsplit
  · left
    simp [hstart]
  · cases middle with
    | nil => exact .inl (by simp [hstart])
    | cons next middle =>
      obtain ⟨rfl, -⟩ := List.cons.inj hmiddle
      right
      simp [hstop]

theorem IsLineEnd.eq_size_or_exists {document : Text} {offset : Nat}
    (h : IsLineEnd document offset) :
    offset = size document ∨ ∃ line ∈ Line.scan document, line.start = offset := by
  obtain ⟨before, after, hpieces, rfl⟩ := h
  cases after with
  | nil =>
    left
    rw [← flatten_pieces document, hpieces, List.append_nil]
  | cons piece after =>
    right
    rw [Line.scan, hpieces, Line.ofPieces_append]
    exact ⟨_, List.mem_append_right _ List.mem_cons_self, Nat.zero_add _⟩

end Text

end DiagramSync
