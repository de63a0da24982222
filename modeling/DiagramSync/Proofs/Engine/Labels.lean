import DiagramSync.Proofs.Document.Visible
import DiagramSync.Proofs.Engine.Warnings
import DiagramSync.Proofs.Region.Pairing

/-!
What diagnostics point at. Whoever reads the document, for regions, for stories or for entities,
each label of what is said about it is at a line of the document, and the first one is primary.
-/

namespace DiagramSync

open Text

namespace Diagnostic

/-- The first label is there and primary, and every label is at a place with the property. -/
def PointsAt (p : Span → Prop) (diagnostic : Diagnostic) : Prop :=
  (∃ first others, diagnostic.labels = first :: others ∧ first.primary = true) ∧
    ∀ label ∈ diagnostic.labels, p label.span

variable {p q : Span → Prop} {diagnostic : Diagnostic}

theorem PointsAt.imp (h : diagnostic.PointsAt p) (hpq : ∀ span, p span → q span) :
    diagnostic.PointsAt q :=
  ⟨h.1, fun label hlabel => hpq label.span (h.2 label hlabel)⟩

theorem pointsAt_of_label {span : Span} {message : String}
    (h : diagnostic.labels = [⟨span, message, true⟩]) (hspan : p span) :
    diagnostic.PointsAt p := by
  rw [PointsAt, h, List.forall_mem_singleton]
  exact ⟨⟨_, _, rfl, rfl⟩, hspan⟩

theorem pointsAt_of_labels {span other : Span} {message context : String}
    (h : diagnostic.labels = [⟨span, message, true⟩, ⟨other, context, false⟩]) (hspan : p span)
    (hother : p other) : diagnostic.PointsAt p := by
  rw [PointsAt, h, List.forall_mem_cons, List.forall_mem_singleton]
  exact ⟨⟨_, _, rfl, rfl⟩, hspan, hother⟩

theorem Says.pointsAt {severity : Severity} {code message : String} {place : Span}
    {others : List Span} (h : diagnostic.Says severity code message place others)
    (hplace : p place) (hothers : ∀ other ∈ others, p other) : diagnostic.PointsAt p := by
  obtain ⟨first, rest, hlabels, hfirst, hrest⟩ := List.map_eq_cons_iff.mp h.labels_eq
  obtain ⟨rfl, hprimary⟩ := Prod.mk.inj hfirst
  rw [PointsAt, hlabels, List.forall_mem_cons]
  refine ⟨⟨first, rest, rfl, hprimary⟩, hplace, fun label hlabel => ?_⟩
  have hmem : (label.span, label.primary) ∈ others.map fun other => (other, false) :=
    hrest ▸ List.mem_map_of_mem hlabel
  obtain ⟨other, hother, heq⟩ := List.mem_map.mp hmem
  obtain ⟨rfl, -⟩ := Prod.mk.inj heq
  exact hothers _ hother

end Diagnostic

open Diagnostic

variable {p : Span → Prop} {diagnostic : Diagnostic}

/-! ### Stories and entities -/

theorem Story.Warns.pointsAt (h : Warns p diagnostic) : diagnostic.PointsAt p := by
  cases h with
  | malformedHeader line hline => exact pointsAt_of_label rfl hline
  | malformedScenario number line hline => exact pointsAt_of_label rfl hline
  | withoutScenarios story hstory => exact pointsAt_of_label rfl hstory
  | outOfSequence number line hline => exact pointsAt_of_label rfl hline

theorem EntityEntry.Warns.pointsAt (h : Warns p diagnostic) : diagnostic.PointsAt p := by
  cases h with
  | unnamed line hline => exact pointsAt_of_label rfl hline
  | duplicate entry first hentry hfirst => exact pointsAt_of_labels rfl hentry hfirst

theorem Entity.WarnsOf.pointsAt {codes : List Code} {entry : EntityEntry}
    (h : WarnsOf codes entry diagnostic) (hentry : p entry.span) : diagnostic.PointsAt p := by
  obtain ⟨code, -, message, help, rfl⟩ := h
  exact pointsAt_of_label rfl hentry

theorem Model.Warns.pointsAt {document : Text} (h : Warns document diagnostic) :
    diagnostic.PointsAt (· ∈ (Line.scan document).map Line.span) := by
  cases h with
  | story hwarns => exact hwarns.pointsAt
  | bullet hwarns => exact hwarns.pointsAt
  | entry entry hentry hwarns => exact hwarns.pointsAt hentry

/-! ### Regions -/

namespace Region

variable {markers before rest : List (Line × Marker)} {opening : Opening}

theorem OpenBehind.of_forall (h : OpenBehind markers opening)
    (hmarkers : ∀ pair ∈ markers, p pair.1.span) : p opening.line.span := by
  obtain ⟨before, after, rfl, -⟩ := openBehind_iff.mp h
  exact hmarkers _ (List.mem_append_right before List.mem_cons_self)

theorem FirstOpened.of_forall (h : FirstOpened markers opening)
    (hmarkers : ∀ pair ∈ markers, p pair.1.span) : p opening.line.span := by
  obtain ⟨before, after, rfl, -⟩ := h
  exact hmarkers _ (List.mem_append_right before List.mem_cons_self)

/-- What is said about a marker points at its line and at one of those in front of it. -/
theorem Tells.pointsAt {pair : Line × Marker} {told : Option Diagnostic}
    (h : Tells before pair told) (hbefore : ∀ other ∈ before, p other.1.span)
    (hpair : p pair.1.span) : ∀ diagnostic ∈ told, diagnostic.PointsAt p := by
  rintro diagnostic htold
  cases h with
  | nested line name outer _ hopen hsays =>
    obtain rfl := Option.mem_some_iff.mp htold
    exact hsays.pointsAt hpair (List.forall_mem_singleton.mpr (hopen.of_forall hbefore))
  | duplicate line first _ hfree hfirst hsays =>
    obtain rfl := Option.mem_some_iff.mp htold
    exact hsays.pointsAt hpair (List.forall_mem_singleton.mpr (hfirst.of_forall hbefore))
  | opens | closes => contradiction
  | stray line name _ hstray hsays =>
    obtain rfl := Option.mem_some_iff.mp htold
    exact hsays.pointsAt hpair (List.forall_mem_nil _)

theorem Reported.pointsAt {diagnostics : List Diagnostic} (h : Reported before rest diagnostics)
    (hbefore : ∀ pair ∈ before, p pair.1.span) (hrest : ∀ pair ∈ rest, p pair.1.span) :
    ∀ diagnostic ∈ diagnostics, diagnostic.PointsAt p := by
  induction h with
  | closed => exact List.forall_mem_nil _
  | unterminated before opening diagnostic hopen hsays =>
    rw [List.forall_mem_singleton]
    exact hsays.pointsAt (hopen.of_forall hbefore) (List.forall_mem_nil _)
  | marker htells hreported ih =>
    rw [List.forall_mem_cons] at hrest
    rw [List.forall_mem_append]
    refine ⟨fun diagnostic htold => ?_, ih ?_ hrest.2⟩
    · exact htells.pointsAt hbefore hrest.1 diagnostic (Option.mem_toList.mp htold)
    · rw [List.forall_mem_append, List.forall_mem_singleton]
      exact ⟨hbefore, hrest.1⟩

theorem line_mem_of_mem_markerLines {document : Text} {pair : Line × Marker}
    (h : pair ∈ markerLines document) : pair.1 ∈ Line.scan document := by
  obtain ⟨line, hline, hpair⟩ := List.mem_filterMap.mp h
  obtain ⟨marker, -, rfl⟩ := Option.map_eq_some_iff.mp hpair
  exact hline

/-- All that is said about the markers of a document, whether they are ambiguous or not. -/
def diagnosticsOf (document : Text) : List Diagnostic :=
  match ofDocument document with
  | .ok found => found.diagnostics
  | .error diagnostics => diagnostics

theorem diagnosticsOf_eq (document : Text) :
    diagnosticsOf document = (pairUp document none [] (markerLines document)).diagnostics := by
  simp only [diagnosticsOf, ofDocument]
  cases (pairUp document none [] (markerLines document)).diagnostics.any Diagnostic.isError <;> rfl

end Region

/-! ### Documents -/

/-- Every label of what is said about a document is at one of its lines, and takes in the line
without what ends it. Such a place lies within the document, begins and ends between characters
and has a length. -/
theorem Diagnostic.pointsAt_lines {document : Text}
    (h : diagnostic ∈ Region.diagnosticsOf document ++
      ((Story.ofDocument document).diagnostics ++
        ((Entity.ofDocument? document).getD .empty).diagnostics)) :
    diagnostic.PointsAt fun span => SpansLine document span ∧
      span.start ≤ span.stop ∧ span.stop ≤ size document ∧
      isBoundary span.start document = true ∧ isBoundary span.stop document = true ∧
      span.start + span.length = span.stop := by
  have hlines : diagnostic.PointsAt (· ∈ (Line.scan document).map Line.span) := by
    obtain hregion | hmodel := List.mem_append.mp h
    · rw [Region.diagnosticsOf_eq] at hregion
      refine (Region.reported_pairUp document .start).pointsAt (List.forall_mem_nil _) ?_
        diagnostic hregion
      exact fun pair hpair => List.mem_map_of_mem (Region.line_mem_of_mem_markerLines hpair)
    · exact (Model.warns_of_mem_ofDocument hmodel).pointsAt
  refine hlines.imp fun span hspan => ?_
  obtain ⟨line, hline, rfl⟩ := List.mem_map.mp hspan
  have hspans := Line.spansLine_span hline
  obtain ⟨hle, hsize, hstart, hstop⟩ := hspans.bounds
  exact ⟨hspans, hle, hsize, hstart, hstop, Nat.add_sub_of_le hle⟩

/-- Both begin markers are behind a character of two bytes and a line break of two. -/
theorem Diagnostic.pointsAt_lines_nested :
    let document :=
      "é\r\n<!-- specgram:begin section=a -->\r\n<!-- specgram:begin section=b -->".toList
    ∃ diagnostic ∈ Region.diagnosticsOf document,
      diagnostic.labels.map Label.span = [⟨39, 72⟩, ⟨4, 37⟩] ∧
        SpansLine document ⟨39, 72⟩ ∧ SpansLine document ⟨4, 37⟩ := by
  intro document
  let outer : Line := ⟨"<!-- specgram:begin section=a -->".toList, 4, 39, false⟩
  let inner : Line := ⟨"<!-- specgram:begin section=b -->".toList, 39, 72, false⟩
  let diagnostic := Region.nested "b" inner ⟨"a", outer⟩
  have hmem : diagnostic ∈ Region.diagnosticsOf document := by decide +kernel
  obtain ⟨-, hlabels⟩ := Diagnostic.pointsAt_lines (List.mem_append_left _ hmem)
  have hinner := (hlabels ⟨⟨39, 72⟩, "nested begin marker", true⟩ (by decide +kernel)).1
  have houter :=
    (hlabels ⟨⟨4, 37⟩, "enclosing region opened here", false⟩ (by decide +kernel)).1
  exact ⟨diagnostic, hmem, by decide +kernel, hinner, houter⟩

end DiagramSync
