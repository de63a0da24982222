import DiagramSync.Proofs.Region.Boundary
import DiagramSync.Proofs.Region.Location
import DiagramSync.Update

/-!
The places of edits: a new region goes where two stretches of the document's layout meet,
and a replaced content is that of one of its regions.
-/

namespace DiagramSync

open Text

/-! ### Headings -/

/-- A line of the document that is a heading. -/
def HeadingLine (document : Text) (line : Line) : Prop :=
  line ∈ Line.scan document ∧ (Heading.ofLine? line).isSome

theorem exists_line_of_mem_all {document : Text} {heading : PlacedHeading}
    (h : heading ∈ Heading.all document) :
    ∃ line, HeadingLine document line ∧ heading.line = ⟨line.start, line.stop⟩ := by
  simp only [Heading.all, List.mem_filterMap, Option.map_eq_some_iff] at h
  obtain ⟨line, hline, found, hfound, rfl⟩ := h
  exact ⟨line, ⟨hline, by simp [hfound]⟩, rfl⟩

theorem isLineEnd_of_headingLine {document : Text} {line : Line} (h : HeadingLine document line) :
    IsLineEnd document line.start ∧ IsLineEnd document line.stop := by
  obtain ⟨before, piece, after, hpieces, -, hstart, hstop, -⟩ := Line.mem_ofPieces h.1
  refine ⟨⟨before, piece :: after, hpieces, by omega⟩, ⟨before ++ [piece], after, ?_, ?_⟩⟩
  · simpa using hpieces
  · simp [hstop]

namespace Update

/-! ### The place of a new region -/

theorem mem_of_anchored? {anchor : Anchor} {headings : List PlacedHeading}
    {heading : PlacedHeading} {rest : List PlacedHeading}
    (h : anchored? anchor headings = some (heading, rest)) :
    heading ∈ headings ∧ ∀ other ∈ rest, other ∈ headings := by
  induction headings with
  | nil => simp [anchored?] at h
  | cons first others ih =>
    rw [anchored?] at h
    split at h
    · cases h
      simp +contextual
    · obtain ⟨hmem, hrest⟩ := ih h
      exact ⟨by simp [hmem], fun other hother => by simp [hrest other hother]⟩

/-- The anchor asks for the end of the document or for one of the two ends of a heading's line. -/
theorem anchorOffset_cases (document : Text) (regions : List Region) (anchor : Anchor) :
    anchorOffset document regions anchor = size document ∨
      ∃ line, HeadingLine document line ∧
        (anchorOffset document regions anchor = line.start ∨
          anchorOffset document regions anchor = line.stop) := by
  have hfree : ∀ heading ∈ freeHeadings document regions, heading ∈ Heading.all document :=
    fun heading h => (List.mem_filter.mp h).1
  rw [anchorOffset]
  split
  · rename_i heading rest hanchored
    obtain ⟨hmem, hrest⟩ := mem_of_anchored? hanchored
    split
    · obtain ⟨line, hline, hspan⟩ := exists_line_of_mem_all (hfree heading hmem)
      exact .inr ⟨line, hline, .inr (by rw [hspan])⟩
    · rw [sectionEnd]
      split
      · rename_i next hnext
        obtain ⟨line, hline, hspan⟩ :=
          exists_line_of_mem_all (hfree next (hrest next (List.mem_of_find?_eq_some hnext)))
        exact .inr ⟨line, hline, .inl (by rw [hspan])⟩
      · exact .inl rfl
  · exact .inl rfl

theorem isLineEnd_anchorOffset (document : Text) (regions : List Region) (anchor : Anchor) :
    IsLineEnd document (anchorOffset document regions anchor) := by
  obtain h | ⟨line, hline, h | h⟩ := anchorOffset_cases document regions anchor
  · rw [h]
    exact isLineEnd_size document
  · rw [h]
    exact (isLineEnd_of_headingLine hline).1
  · rw [h]
    exact (isLineEnd_of_headingLine hline).2

section Layouts

variable {layout : Layout}

theorem regionAt?_of_inside {offset : Nat} (h : layout.Inside offset) :
    regionAt? (layout.regions 0) offset ≠ none := by
  obtain ⟨before, name, opener, content, closer, after, rfl, hstart, hstop⟩ := h
  intro hnone
  have hregion := List.find?_eq_none.mp hnone _
    (Layout.placed_mem_regions 0 before after name opener content closer)
  simp only [Region.contains, Region.placed, Span.contains, Nat.zero_add, Bool.and_eq_true,
    decide_eq_true_eq, not_and, Nat.not_lt] at hregion
  have := hregion (Nat.le_of_lt hstart)
  omega

theorem meets_newRegionOffset (hproper : layout.Proper) (anchor : Anchor) :
    layout.Meets (newRegionOffset layout.text (layout.regions 0) anchor) := by
  rw [newRegionOffset]
  split
  · rename_i region hregion
    obtain ⟨before, name, opener, content, closer, after, hlayout, rfl⟩ :=
      Layout.exists_split_of_mem_regions (List.mem_of_find?_eq_some hregion)
    exact ⟨before, .region name opener content closer :: after, hlayout, by simp [Region.placed]⟩
  · rename_i hnone
    obtain h | h := Layout.meets_or_inside hproper
      (isLineEnd_anchorOffset layout.text (layout.regions 0) anchor)
    · exact h
    · exact absurd hnone (regionAt?_of_inside h)

/-! ### The place of an edit -/

/-- What a region's new content brings along: a line feed behind its begin marker and its end
marker, where they are missing. -/
def newContent (name : String) (opener block : Text) (closer : Option Text) : Text :=
  (if Whole opener then [] else ['\n']) ++ block ++
    (if closer.isSome then [] else markerLine .ends name)

/-- The edit for a diagram, seen in a layout that begins at the offset `start`: a new region
where stretches meet, or a new content of the region of that name. -/
inductive Placed (start : Nat) (layout : Layout) (diagram : Diagram) : Edit → Prop where
  | inserted (before after : Layout) : layout = before ++ after →
      diagram.kind.name ∉ layout.names →
      Placed start layout diagram (.insert (start + size before.text)
        (regionBlock diagram.kind.name (codeBlock diagram.markup)))
  | replaced (before after : Layout) (opener content : Text) (closer : Option Text) :
      layout = before ++ .region diagram.kind.name opener content closer :: after →
      Placed start layout diagram
        (.replace ⟨start + size before.text + size opener,
          start + size before.text + size opener + size content⟩
          (newContent diagram.kind.name opener (codeBlock diagram.markup) closer))

/-- The region of the diagram holds its block and nothing else. -/
def UpToDate (layout : Layout) (diagram : Diagram) : Prop :=
  ∃ before opener closer after, layout =
    before ++ .region diagram.kind.name opener (codeBlock diagram.markup) (some closer) :: after

theorem named?_eq_none_iff (start : Nat) (name : String) :
    Region.named? (layout.regions start) name = none ↔ name ∉ layout.names := by
  rw [← Layout.map_name_regions start layout, Region.named?, List.find?_eq_none]
  simp

theorem exists_split_of_named? {start : Nat} {name : String} {region : Region}
    (h : Region.named? (layout.regions start) name = some region) :
    ∃ before opener content closer after,
      layout = before ++ .region name opener content closer :: after ∧
      region = .placed (start + size (Layout.text before)) name opener content closer := by
  obtain ⟨before, other, opener, content, closer, after, hlayout, rfl⟩ :=
    Layout.exists_split_of_mem_regions (List.mem_of_find?_eq_some h)
  obtain rfl : other = name := by simpa [Region.placed] using List.find?_some h
  exact ⟨before, opener, content, closer, after, hlayout, rfl⟩

theorem replacement_eq {before after : Layout} {name : String} {opener content : Text}
    {closer : Option Text} (hopener : opener ≠ [])
    (hlayout : layout = before ++ .region name opener content closer :: after) (block : Text) :
    replacement layout.text (.placed (size before.text) name opener content closer) block =
      newContent name opener block closer := by
  have htake : takeBytes (size before.text + size opener) layout.text = before.text ++ opener := by
    rw [hlayout, ← size_append]
    simpa [Stretch.text] using takeBytes_size_append (before.text ++ opener)
      (content ++ closer.getD [] ++ Layout.text after)
  have hbreak : endsWith ['\n'] (before.text ++ opener) = true ↔ Whole opener := by
    simp [endsWith_feed_iff, whole_append_iff hopener, hopener]
  simp only [replacement, newContent, Region.placed, htake, hbreak]
  rfl

/-- What becomes of a diagram's region, and where in the layout. -/
theorem plan_cases (hproper : layout.Proper) (anchor : Anchor) (diagram : Diagram) :
    let planned := plan layout.text (layout.regions 0) anchor diagram
    planned = (.unchanged, none) ∧ UpToDate layout diagram ∨
      (∃ edit, planned = (.replaced, some edit) ∧ Placed 0 layout diagram edit) ∨
      ∃ edit, planned = (.inserted, some edit) ∧ Placed 0 layout diagram edit := by
  intro planned
  simp only [planned, plan]
  split
  · rename_i region hregion
    obtain ⟨before, opener, content, closer, after, hlayout, hplaced⟩ :=
      exists_split_of_named? hregion
    rw [Nat.zero_add] at hplaced
    subst hplaced
    have hmarked : Stretch.MarkedRegion diagram.kind.name opener content closer :=
      hproper.marked (.region _ opener content closer) (by simp [hlayout])
    split
    · rename_i hholds
      obtain ⟨hcloser, rfl⟩ : closer.isSome ∧ content = codeBlock diagram.markup := by
        simpa [holds, Region.placed] using hholds
      obtain ⟨line, rfl⟩ := Option.isSome_iff_exists.mp hcloser
      exact .inl ⟨rfl, before, opener, line, after, hlayout⟩
    · refine .inr (.inl ⟨_, rfl, ?_⟩)
      rw [replacement_eq hmarked.opener_piece.ne_nil hlayout]
      simpa [Region.placed] using @Placed.replaced 0 layout diagram before after opener content
        closer hlayout
  · rename_i hnone
    obtain ⟨before, after, hlayout, hoffset⟩ := meets_newRegionOffset hproper anchor
    refine .inr (.inr ⟨_, rfl, ?_⟩)
    rw [← hoffset]
    simpa using @Placed.inserted 0 layout diagram before after hlayout
      ((named?_eq_none_iff 0 _).mp hnone)

end Layouts

end Update
end DiagramSync
