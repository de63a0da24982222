import DiagramSync.Proofs.Region.Entry
import DiagramSync.Proofs.Update.Place

/-!
The parts of an updated document: the regions that diagrams bring along and the line feeds in
front of them. A revision tells which regions of the updated document are the old ones and
which are the diagrams'.
-/

namespace DiagramSync

open Text Update

/-! ### Regions of diagrams -/

/-- No line of the diagram's block is taken for a marker. -/
def Diagram.Unmarked (diagram : Diagram) : Prop :=
  ∀ line ∈ Line.scan (codeBlock diagram.markup), Marker.parse? line.text = none

instance (diagram : Diagram) : Decidable diagram.Unmarked :=
  inferInstanceAs (Decidable (∀ line ∈ Line.scan (codeBlock diagram.markup),
    Marker.parse? line.text = none))

theorem Diagram.Unmarked.ofPiece?_eq_none {diagram : Diagram} (h : diagram.Unmarked) {piece : Text}
    (hpiece : piece ∈ pieces (codeBlock diagram.markup)) : Marker.ofPiece? piece = none := by
  have hmem : Line.content piece ∈ (Line.scan (codeBlock diagram.markup)).map Line.text := by
    rw [Line.scan, Line.map_text_ofPieces]
    exact List.mem_map_of_mem hpiece
  obtain ⟨line, hline, htext⟩ := List.mem_map.mp hmem
  rw [Marker.ofPiece?, ← htext]
  exact h line hline

theorem Diagram.Unmarked.quiet {diagram : Diagram} (h : diagram.Unmarked) (name : String) :
    ∀ piece ∈ pieces (codeBlock diagram.markup), Marker.Quiet name piece := by
  intro piece hpiece marker hmarker
  rw [h.ofPiece?_eq_none hpiece] at hmarker
  contradiction

@[simp] theorem whole_codeBlock (markup : String) : Whole (codeBlock markup) :=
  whole_append_feed _

@[simp] theorem whole_markerLine (side : Side) (name : String) : Whole (markerLine side name) :=
  whole_append_feed _

@[simp] theorem markerLine_ne_nil (side : Side) (name : String) : markerLine side name ≠ [] := by
  simp [markerLine]

theorem isPiece_markerLine (side : Side) (kind : Kind) : IsPiece (markerLine side kind.name) := by
  cases side <;> cases kind <;> decide

theorem ofPiece?_markerLine (side : Side) (kind : Kind) :
    Marker.ofPiece? (markerLine side kind.name) = some ⟨side, kind.name⟩ := by
  cases side <;> cases kind <;> decide

/-- The region that a diagram has in an updated document. -/
def Diagram.entry (diagram : Diagram) : Entry :=
  ⟨diagram.kind.name, String.ofList (codeBlock diagram.markup), true⟩

namespace Stretch

/-- A new region for a diagram. -/
def ofDiagram (diagram : Diagram) : Stretch :=
  .region diagram.kind.name (markerLine .begins diagram.kind.name) (codeBlock diagram.markup)
    (some (markerLine .ends diagram.kind.name))

theorem text_ofDiagram (diagram : Diagram) :
    (ofDiagram diagram).text = regionBlock diagram.kind.name (codeBlock diagram.markup) := rfl

theorem closed_ofDiagram (diagram : Diagram) : (ofDiagram diagram).Closed :=
  ⟨rfl, (whole_append_iff (markerLine_ne_nil _ _)).mpr (whole_markerLine _ _)⟩

theorem marked_of_unmarked {diagram : Diagram} (h : diagram.Unmarked) {opener closer : Text}
    (hopener : IsPiece opener ∧ Marker.ofPiece? opener = some ⟨.begins, diagram.kind.name⟩)
    (hwhole : Whole opener)
    (hcloser : IsPiece closer ∧ Marker.ofPiece? closer = some ⟨.ends, diagram.kind.name⟩) :
    MarkedRegion diagram.kind.name opener (codeBlock diagram.markup) (some closer) where
  opener_piece := hopener.1
  opener_marker := hopener.2
  opener_whole := fun _ => hwhole
  content_quiet := h.quiet _
  closer_piece := by simpa using hcloser
  content_whole := fun _ => whole_codeBlock _

theorem marked_ofDiagram {diagram : Diagram} (h : diagram.Unmarked) : (ofDiagram diagram).Marked :=
  marked_of_unmarked h ⟨isPiece_markerLine _ _, ofPiece?_markerLine _ _⟩ (whole_markerLine _ _)
    ⟨isPiece_markerLine _ _, ofPiece?_markerLine _ _⟩

theorem MarkedRegion.exists_renewed {diagram : Diagram} {opener content : Text}
    {closer : Option Text} (hmarked : MarkedRegion diagram.kind.name opener content closer)
    (h : diagram.Unmarked) :
    ∃ opener' closer',
      (region diagram.kind.name opener' (codeBlock diagram.markup) (some closer')).Marked ∧
      (region diagram.kind.name opener' (codeBlock diagram.markup) (some closer')).text =
        opener ++ newContent diagram.kind.name opener (codeBlock diagram.markup) closer ++
          closer.getD [] ∧
      ((region diagram.kind.name opener content closer).Closed →
        (region diagram.kind.name opener' (codeBlock diagram.markup) (some closer')).Closed) := by
  have hopener : ∃ opener', IsPiece opener' ∧
      Marker.ofPiece? opener' = some ⟨.begins, diagram.kind.name⟩ ∧ Whole opener' ∧
      opener' = opener ++ (if Whole opener then [] else ['\n']) := by
    by_cases hwhole : Whole opener
    · exact ⟨opener, hmarked.opener_piece, hmarked.opener_marker, hwhole, by simp [hwhole]⟩
    · refine ⟨opener ++ ['\n'], hmarked.opener_piece.complete hwhole, ?_, whole_append_feed _,
        by simp [hwhole]⟩
      rw [Marker.ofPiece?_complete hwhole, hmarked.opener_marker]
  obtain ⟨opener', hpiece, hmarker, hwhole, heq⟩ := hopener
  cases closer with
  | none =>
    refine ⟨opener', markerLine .ends diagram.kind.name, ?_, ?_, ?_⟩
    · exact marked_of_unmarked h ⟨hpiece, hmarker⟩ hwhole
        ⟨isPiece_markerLine _ _, ofPiece?_markerLine _ _⟩
    · simp [text, newContent, heq]
    · rintro ⟨hterminated, -⟩
      contradiction
  | some line =>
    obtain ⟨hline, hend⟩ := hmarked.closer_piece line rfl
    refine ⟨opener', line, marked_of_unmarked h ⟨hpiece, hmarker⟩ hwhole ⟨hline, hend⟩, ?_, ?_⟩
    · simp [text, newContent, heq]
    · rintro ⟨-, hclosed⟩
      refine ⟨rfl, ?_⟩
      rw [text, Option.getD_some, whole_append_iff hline.ne_nil] at hclosed ⊢
      exact hclosed

theorem marked_feed : (plain ['\n']).Marked := by
  refine ⟨by decide, fun marker hmarker => ?_⟩
  have hnone : Marker.ofPiece? ['\n'] = none := by decide
  rw [hnone] at hmarker
  contradiction

theorem closed_feed : (plain ['\n']).Closed :=
  ⟨rfl, whole_feed⟩

end Stretch

/-! ### What is set off -/

namespace Update

theorem separator_cases (written : Text) :
    Whole written ∧ (separator written = [] ∨ separator written = ['\n']) ∨
      ¬ Whole written ∧ separator written = ['\n', '\n'] := by
  simp only [separator, endsWith_feed_iff, List.isEmpty_iff]
  by_cases hnil : written = []
  · simp [hnil]
  · by_cases hwhole : Whole written
    · simp only [hnil, hwhole, ne_eq, not_false_eq_true, and_self, if_true, true_and]
      split <;> simp
    · simp [hnil, hwhole]

/-- With line feeds behind it, a layout without an open region is made of whole lines. -/
theorem exists_separated {layout : Layout} (hproper : layout.Proper)
    (hterminated : ∀ stretch ∈ layout, stretch.terminated = true) :
    ∃ separated : Layout, separated.Proper ∧ (∀ stretch ∈ separated, stretch.Closed) ∧
      separated.entries = layout.entries ∧
      separated.text = layout.text ++ separator layout.text := by
  have hblank : ∀ closed : Layout, closed.Proper → (∀ stretch ∈ closed, stretch.Closed) →
      Layout.Proper (closed ++ [.plain ['\n']]) ∧
        ∀ stretch ∈ closed ++ [.plain ['\n']], stretch.Closed := by
    intro closed hclosedProper hclosed
    refine ⟨Layout.proper_append.mpr ⟨hclosedProper, fun _ => hclosed,
      Stretch.marked_feed, by simp, trivial⟩, ?_⟩
    simp only [List.forall_mem_append, List.forall_mem_singleton]
    exact ⟨hclosed, Stretch.closed_feed⟩
  obtain ⟨hwhole, hnone | hfeed⟩ | ⟨hpart, hfeeds⟩ := separator_cases layout.text
  · exact ⟨layout, hproper, Layout.closed_of_whole hproper hterminated hwhole, rfl,
      by simp [hnone]⟩
  · obtain ⟨hproper', hclosed'⟩ :=
      hblank layout hproper (Layout.closed_of_whole hproper hterminated hwhole)
    exact ⟨_, hproper', hclosed', by simp, by simp [hfeed, Stretch.text]⟩
  · obtain ⟨closed, hclosedProper, hclosed, hentries, htext⟩ :=
      Layout.exists_closed hproper hterminated hpart
    obtain ⟨hproper', hclosed'⟩ := hblank closed hclosedProper hclosed
    exact ⟨_, hproper', hclosed', by simp [hentries], by simp [hfeeds, htext, Stretch.text]⟩

end Update

/-! ### Revisions -/

/-- The regions of a document before and after new ones go in and others are replaced. -/
inductive Revised : List Diagram → List Diagram → List Entry → List Entry → Prop where
  | nil : Revised [] [] [] []
  | keep {inserted replaced : List Diagram} {old new : List Entry} (entry : Entry) :
      Revised inserted replaced old new →
      Revised inserted replaced (entry :: old) (entry :: new)
  | insert {inserted replaced : List Diagram} {old new : List Entry} (diagram : Diagram) :
      Revised inserted replaced old new →
      Revised (diagram :: inserted) replaced old (diagram.entry :: new)
  | replace {inserted replaced : List Diagram} {old new : List Entry} (diagram : Diagram)
      (entry : Entry) : entry.name = diagram.kind.name →
      Revised inserted replaced old new →
      Revised inserted (diagram :: replaced) (entry :: old) (diagram.entry :: new)

namespace Revised

variable {inserted replaced : List Diagram} {old new : List Entry}

theorem keep_append (entries : List Entry) (h : Revised inserted replaced old new) :
    Revised inserted replaced (entries ++ old) (entries ++ new) := by
  induction entries with
  | nil => exact h
  | cons entry rest ih => exact .keep entry ih

theorem append_keep (entries : List Entry) (h : Revised inserted replaced old new) :
    Revised inserted replaced (old ++ entries) (new ++ entries) := by
  induction h with
  | nil => simpa using keep_append entries .nil
  | keep entry _ ih => exact ih.keep entry
  | insert diagram _ ih => exact ih.insert diagram
  | replace diagram entry hname _ ih => exact ih.replace diagram entry hname

theorem names_sublist (h : Revised inserted replaced old new) :
    (old.map Entry.name).Sublist (new.map Entry.name) := by
  induction h with
  | nil => exact List.Sublist.refl _
  | keep entry _ ih => exact ih.cons_cons entry.name
  | insert diagram _ ih => exact ih.cons diagram.kind.name
  | replace diagram entry hname _ ih =>
    rw [List.map_cons, List.map_cons, hname]
    exact ih.cons_cons diagram.kind.name

theorem names_perm (h : Revised inserted replaced old new) :
    (new.map Entry.name).Perm
      (old.map Entry.name ++ inserted.map fun diagram => diagram.kind.name) := by
  induction h with
  | nil => exact List.Perm.refl _
  | keep entry _ ih => exact ih.cons entry.name
  | insert diagram _ ih => exact (ih.cons diagram.kind.name).trans List.perm_middle.symm
  | replace diagram entry hname _ ih =>
    rw [List.map_cons, List.map_cons, hname]
    exact ih.cons diagram.kind.name

theorem entry_mem (h : Revised inserted replaced old new) {diagram : Diagram}
    (hmem : diagram ∈ inserted ∨ diagram ∈ replaced) : diagram.entry ∈ new := by
  induction h with
  | nil => simp at hmem
  | keep entry _ ih => exact List.mem_cons_of_mem _ (ih hmem)
  | insert first _ ih =>
    rw [List.mem_cons, or_assoc] at hmem
    obtain rfl | hmem := hmem
    · exact List.mem_cons_self
    · exact List.mem_cons_of_mem _ (ih hmem)
  | replace first entry _ _ ih =>
    rw [List.mem_cons, or_left_comm] at hmem
    obtain rfl | hmem := hmem
    · exact List.mem_cons_self
    · exact List.mem_cons_of_mem _ (ih hmem)

theorem mem_of_kept (h : Revised inserted replaced old new) {entry : Entry} (hmem : entry ∈ old)
    (hkept : ∀ diagram ∈ replaced, diagram.kind.name ≠ entry.name) : entry ∈ new := by
  induction h with
  | nil => exact hmem
  | keep first _ ih =>
    obtain rfl | hmem := List.mem_cons.mp hmem
    · exact List.mem_cons_self
    · exact List.mem_cons_of_mem _ (ih hmem hkept)
  | insert diagram _ ih => exact List.mem_cons_of_mem _ (ih hmem hkept)
  | replace diagram first hname _ ih =>
    rw [List.forall_mem_cons] at hkept
    obtain rfl | hmem := List.mem_cons.mp hmem
    · exact absurd hname.symm hkept.1
    · exact List.mem_cons_of_mem _ (ih hmem hkept.2)

theorem kept_or_entry (h : Revised inserted replaced old new) {entry : Entry} (hmem : entry ∈ new) :
    entry ∈ old ∨ ∃ diagram, (diagram ∈ inserted ∨ diagram ∈ replaced) ∧ entry = diagram.entry := by
  induction h with
  | nil => exact .inl hmem
  | keep first _ ih =>
    obtain rfl | hmem := List.mem_cons.mp hmem
    · exact .inl List.mem_cons_self
    · exact (ih hmem).imp (List.mem_cons_of_mem _) id
  | insert first _ ih =>
    obtain rfl | hmem := List.mem_cons.mp hmem
    · exact .inr ⟨first, .inl List.mem_cons_self, rfl⟩
    · refine (ih hmem).imp id ?_
      rintro ⟨diagram, hdiagram, rfl⟩
      exact ⟨diagram, hdiagram.imp (List.mem_cons_of_mem _) id, rfl⟩
  | replace first _ _ _ ih =>
    obtain rfl | hmem := List.mem_cons.mp hmem
    · exact .inr ⟨first, .inr List.mem_cons_self, rfl⟩
    · refine (ih hmem).imp (List.mem_cons_of_mem _) ?_
      rintro ⟨diagram, hdiagram, rfl⟩
      exact ⟨diagram, hdiagram.imp id (List.mem_cons_of_mem _), rfl⟩

end Revised

end DiagramSync
