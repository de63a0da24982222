import DiagramSync.Proofs.Region.Boundary

/-!
What the regions of a document say, wherever they stand. It does not change when the
document's last line gets the line feed that it lacks.
-/

namespace DiagramSync

open Text

/-- A region without its place. -/
structure Entry where
  name : String
  content : String
  terminated : Bool
  deriving Repr, DecidableEq

def Region.entry (region : Region) : Entry :=
  ⟨region.name, region.content, region.terminated⟩

def Stretch.entry? : Stretch → Option Entry
  | plain _ => none
  | region name _ content closer => some ⟨name, String.ofList content, closer.isSome⟩

theorem Region.named?_of_mem {regions : List Region} (hnodup : (regions.map Region.name).Nodup)
    {region : Region} (h : region ∈ regions) : named? regions region.name = some region := by
  induction regions with
  | nil => simp at h
  | cons first rest ih =>
    rw [List.map_cons, List.nodup_cons] at hnodup
    obtain rfl | h := List.mem_cons.mp h
    · simp [named?]
    · have hne : first.name ≠ region.name := by
        intro hsame
        exact hnodup.1 (hsame ▸ List.mem_map_of_mem h)
      rw [named?, List.find?_cons_of_neg (by simpa using hne)]
      exact ih hnodup.2 h

namespace Layout

def entries (layout : Layout) : List Entry :=
  layout.filterMap Stretch.entry?

@[simp] theorem entries_nil : entries [] = [] := rfl

@[simp] theorem entries_plain (piece : Text) (rest : Layout) :
    entries (.plain piece :: rest) = entries rest := rfl

@[simp] theorem entries_region (name : String) (opener content : Text) (closer : Option Text)
    (rest : Layout) : entries (.region name opener content closer :: rest) =
      ⟨name, String.ofList content, closer.isSome⟩ :: entries rest := rfl

@[simp] theorem entries_append (a b : Layout) : entries (a ++ b) = entries a ++ entries b := by
  simp [entries]

theorem map_entry_regions (start : Nat) (layout : Layout) :
    (regions start layout).map Region.entry = entries layout := by
  induction layout generalizing start with
  | nil => rfl
  | cons stretch rest ih =>
    cases stretch with
    | plain piece => exact ih _
    | region name opener content closer =>
      rw [regions, List.map_cons, ih, entries_region]
      rfl

theorem map_name_entries (layout : Layout) : (entries layout).map Entry.name = names layout := by
  induction layout with
  | nil => rfl
  | cons stretch rest ih => cases stretch <;> simp [ih]

end Layout

/-! ### Line feeds that are missing -/

theorem Marker.ofPiece?_complete {piece : Text} (h : ¬ Whole piece) :
    Marker.ofPiece? (piece ++ ['\n']) = Marker.ofPiece? piece := by
  rw [ofPiece?, Line.content_complete h, ofPiece?]

theorem Stretch.exists_closed {stretch : Stretch} (hmarked : stretch.Marked)
    (hterminated : stretch.terminated = true) (h : ¬ Whole stretch.text) :
    ∃ closed : Stretch, closed.Marked ∧ closed.Closed ∧ closed.entry? = stretch.entry? ∧
      closed.text = stretch.text ++ ['\n'] := by
  cases stretch with
  | plain piece =>
    obtain ⟨hpiece, hmarker⟩ := hmarked
    have hline : ¬ Whole piece := h
    refine ⟨.plain (piece ++ ['\n']), ⟨hpiece.complete hline, ?_⟩,
      ⟨rfl, whole_append_feed piece⟩, rfl, rfl⟩
    rwa [Marker.ofPiece?_complete hline]
  | region name opener content closer =>
    obtain ⟨line, rfl⟩ := Option.isSome_iff_exists.mp hterminated
    obtain ⟨hpiece, hmarker⟩ := hmarked.closer_piece line rfl
    have hline : ¬ Whole line := by
      rwa [text, Option.getD_some, whole_append_iff hpiece.ne_nil] at h
    have htext : (region name opener content (some (line ++ ['\n']))).text =
        (region name opener content (some line)).text ++ ['\n'] := by
      simp [text]
    refine ⟨.region name opener content (some (line ++ ['\n'])), ?_,
      ⟨rfl, htext ▸ whole_append_feed _⟩, rfl, htext⟩
    exact {
      opener_piece := hmarked.opener_piece
      opener_marker := hmarked.opener_marker
      opener_whole := fun _ => hmarked.opener_whole (by simp [hpiece.ne_nil])
      content_quiet := hmarked.content_quiet
      closer_piece := by
        simpa [Marker.ofPiece?_complete hline] using ⟨hpiece.complete hline, hmarker⟩
      content_whole := fun _ => hmarked.content_whole rfl }

/-- The region at the end of a document that lacks its end marker, with its last line completed. -/
theorem Stretch.MarkedRegion.complete {name : String} {opener content : Text}
    (hmarked : MarkedRegion name opener content none) (h : ¬ Whole (opener ++ content)) :
    ∃ opener' content', MarkedRegion name opener' content' none ∧
      opener' ++ content' = opener ++ content ++ ['\n'] := by
  by_cases hempty : content = []
  · subst hempty
    rw [List.append_nil] at h
    refine ⟨opener ++ ['\n'], [], ?_, by simp⟩
    exact {
      opener_piece := hmarked.opener_piece.complete h
      opener_marker := by rw [Marker.ofPiece?_complete h, hmarked.opener_marker]
      opener_whole := fun _ => whole_append_feed opener
      content_quiet := by simp [Text.pieces]
      closer_piece := by simp
      content_whole := by simp }
  · rw [whole_append_iff hempty] at h
    obtain ⟨init, last, hpieces, hlast, hcomplete⟩ := pieces_complete h
    have hquiet := hmarked.content_quiet
    rw [hpieces, List.forall_mem_append, List.forall_mem_singleton] at hquiet
    refine ⟨opener, content ++ ['\n'], ?_, by simp⟩
    exact {
      opener_piece := hmarked.opener_piece
      opener_marker := hmarked.opener_marker
      opener_whole := fun _ => hmarked.opener_whole (by simp [hempty])
      content_quiet := by
        rw [hcomplete, List.forall_mem_append, List.forall_mem_singleton]
        refine ⟨hquiet.1, ?_⟩
        rw [Marker.Quiet, Marker.ofPiece?_complete hlast]
        exact hquiet.2
      closer_piece := by simp
      content_whole := by simp }

theorem Stretch.MarkedRegion.append_feed {name : String} {opener content : Text}
    (hmarked : MarkedRegion name opener content none) (h : Whole (opener ++ content)) :
    MarkedRegion name opener (content ++ ['\n']) none where
  opener_piece := hmarked.opener_piece
  opener_marker := hmarked.opener_marker
  opener_whole := by
    intro _
    by_cases hempty : content = []
    · simpa [hempty] using h
    · exact hmarked.opener_whole (by simp [hempty])
  content_quiet := by
    have hcontent : Whole content := by
      by_cases hempty : content = []
      · simp [hempty]
      · rwa [whole_append_iff hempty] at h
    have hfeed : Marker.ofPiece? ['\n'] = none := by decide
    rw [pieces_append hcontent, List.forall_mem_append]
    refine ⟨hmarked.content_quiet, ?_⟩
    simp [Text.pieces, Marker.Quiet, hfeed]
  closer_piece := by simp
  content_whole := by simp

namespace Layout

theorem closed_of_whole {layout : Layout} (hproper : layout.Proper)
    (hterminated : ∀ stretch ∈ layout, stretch.terminated = true) (h : Whole layout.text) :
    ∀ stretch ∈ layout, stretch.Closed := by
  induction layout with
  | nil => simp
  | cons stretch rest ih =>
    obtain ⟨hmarked, hclosed, hrest⟩ := hproper
    rw [List.forall_mem_cons] at hterminated ⊢
    by_cases hne : rest = []
    · subst hne
      exact ⟨⟨hterminated.1, by simpa using h⟩, by simp⟩
    · refine ⟨hclosed hne, ih hrest hterminated.2 ?_⟩
      rwa [text_cons, whole_append_iff (text_ne_nil hrest hne)] at h

theorem exists_closed {layout : Layout} (hproper : layout.Proper)
    (hterminated : ∀ stretch ∈ layout, stretch.terminated = true) (h : ¬ Whole layout.text) :
    ∃ closed : Layout, closed.Proper ∧ (∀ stretch ∈ closed, stretch.Closed) ∧
      closed.entries = layout.entries ∧ closed.text = layout.text ++ ['\n'] := by
  induction layout with
  | nil => simp at h
  | cons stretch rest ih =>
    obtain ⟨hmarked, hclosed, hrest⟩ := hproper
    rw [List.forall_mem_cons] at hterminated
    by_cases hne : rest = []
    · subst hne
      obtain ⟨stretch', hmarked', hclosed', hentry, htext⟩ :=
        Stretch.exists_closed hmarked hterminated.1 (by simpa using h)
      exact ⟨[stretch'], ⟨hmarked', by simp, trivial⟩, by simpa using hclosed',
        by simp only [entries, List.filterMap_cons, hentry], by simp [htext]⟩
    · rw [text_cons, whole_append_iff (text_ne_nil hrest hne)] at h
      obtain ⟨rest', hproper', hclosed', hentries, htext⟩ := ih hrest hterminated.2 h
      refine ⟨stretch :: rest', ⟨hmarked, fun _ => hclosed hne, hproper'⟩, ?_, ?_, ?_⟩
      · exact List.forall_mem_cons.mpr ⟨hclosed hne, hclosed'⟩
      · simp only [entries, List.filterMap_cons] at hentries ⊢
        rw [hentries]
      · simp [htext]

end Layout
end DiagramSync
