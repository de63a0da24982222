import DiagramSync.Proofs.Document.Scan
import DiagramSync.Proofs.Update.Patch

/-!
What is seen of the lines of a document. The span of a line that was scanned takes in the text of
the line and leaves out what ends it, so it lies within the document and cuts no character.
-/

namespace DiagramSync

open Text

namespace Text

/-- The text of a line, what ends the line, and what is behind that. A line feed takes one carriage
return in front of it along; the last line may do without the line feed, but not be empty then. -/
inductive EndsLine (visible : Text) : (ending after : Text) → Prop where
  | returnFeed (after : Text) : EndsLine visible "\r\n".toList after
  | feed (after : Text) : (∀ c ∈ visible.getLast?, c ≠ '\r') → EndsLine visible "\n".toList after
  | lastReturn : EndsLine visible "\r".toList []
  | last : visible ≠ [] → (∀ c ∈ visible.getLast?, c ≠ '\r') → EndsLine visible [] []

/-- The span takes in all of one line of the document but what ends the line. -/
def SpansLine (document : Text) (span : Span) : Prop :=
  ∃ before visible ending after, document = before ++ (visible ++ (ending ++ after)) ∧
    Whole before ∧ '\n' ∉ visible ∧ EndsLine visible ending after ∧
    span = ⟨size before, size before + size visible⟩

end Text

namespace Line

theorem exists_endsLine_content {piece : Text} (hpiece : IsPiece piece) {after : Text}
    (hwhole : after ≠ [] → Whole piece) :
    ∃ ending, piece = content piece ++ ending ∧ '\n' ∉ content piece ∧
      EndsLine (content piece) ending after := by
  obtain ⟨line, c, rfl⟩ := (List.eq_nil_or_concat' piece).resolve_left hpiece.ne_nil
  have hfeed := hpiece.feed_not_mem
  by_cases hc : c = '\n'
  · subst hc
    rw [content_append_feed]
    obtain hreturn | ⟨hkept, hlast⟩ := dropReturn_cases line
    · generalize dropReturn line = visible at hreturn ⊢
      subst hreturn
      exact ⟨_, by simp, fun hmem => hfeed (List.mem_append_left _ hmem), .returnFeed after⟩
    · rw [hkept]
      exact ⟨_, rfl, hfeed, .feed after hlast⟩
  · have hpart : ¬ Whole (line ++ [c]) := by simpa [Whole] using hc
    obtain rfl : after = [] := by
      by_contra hafter
      exact hpart (hwhole hafter)
    have hnone : '\n' ∉ line ++ [c] := by simp [hfeed, Ne.symm hc]
    rw [← content_complete hpart, content_append_feed]
    obtain hreturn | ⟨hkept, hlast⟩ := dropReturn_cases (line ++ [c])
    · refine ⟨_, hreturn, fun hmem => hnone ?_, .lastReturn⟩
      rw [hreturn]
      exact List.mem_append_left _ hmem
    · rw [hkept]
      exact ⟨[], by simp, hnone, .last (by simp) hlast⟩

/-- A line of a document stands in it with what ends the line, at the place that it tells. -/
theorem exists_split_of_mem_scan {document : Text} {line : Line} (h : line ∈ scan document) :
    ∃ before ending after, document = before ++ (line.text ++ (ending ++ after)) ∧
      Whole before ∧ '\n' ∉ line.text ∧ EndsLine line.text ending after ∧
      line.start = size before ∧ line.stop = size before + size (line.text ++ ending) := by
  obtain ⟨before, piece, after, hpieces, htext, hstart, hstop, -⟩ := mem_ofPieces h
  have hpiece := pieces_eq_cons (pieces_flatten_suffix hpieces)
  have hafter : after.flatten ≠ [] → Whole piece := fun hne =>
    hpiece.2.1 fun hnil => hne (by rw [hnil, List.flatten_nil])
  obtain ⟨ending, hsplit, hfeed, hends⟩ := exists_endsLine_content hpiece.1 hafter
  rw [Nat.zero_add] at hstart hstop
  refine ⟨before.flatten, ending, after.flatten, ?_, whole_flatten_of_pieces_eq hpieces, ?_⟩
  · rw [htext, ← List.append_assoc (content piece), ← hsplit, ← List.flatten_cons,
      ← List.flatten_append, ← hpieces, flatten_pieces]
  · rw [htext, ← hsplit]
    exact ⟨hfeed, hends, hstart, hstop⟩

theorem spansLine_span {document : Text} {line : Line} (h : line ∈ scan document) :
    SpansLine document line.span := by
  obtain ⟨before, ending, after, hdocument, hwhole, hfeed, hends, hstart, -⟩ :=
    exists_split_of_mem_scan h
  exact ⟨before, line.text, ending, after, hdocument, hwhole, hfeed, hends, by rw [span, hstart]⟩

end Line

/-- The bytes of a line can be cut out of the document: they are in order, within the document and
end between characters. -/
theorem Text.SpansLine.bounds {document : Text} {span : Span} (h : SpansLine document span) :
    span.start ≤ span.stop ∧ span.stop ≤ size document ∧
      isBoundary span.start document = true ∧ isBoundary span.stop document = true := by
  obtain ⟨before, visible, ending, after, rfl, -, -, -, rfl⟩ := h
  refine ⟨Nat.le_add_right _ _, by simp, ?_, ?_⟩
  · exact isBoundary_iff.mpr ⟨before, _, rfl, rfl⟩
  · exact isBoundary_iff.mpr ⟨before ++ visible, ending ++ after, by simp, size_append _ _⟩

end DiagramSync
