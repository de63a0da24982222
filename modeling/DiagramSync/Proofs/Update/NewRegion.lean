import DiagramSync.Proofs.Document.Places
import DiagramSync.Proofs.Region.Pairing
import DiagramSync.Proofs.Region.Slot
import DiagramSync.Proofs.Text.Search
import DiagramSync.Proofs.Update.Place

/-!
The place of a new region, said without the search for it: it is where the anchor asks for, since
no region can begin within the line of a heading outside of the regions.
-/

namespace DiagramSync

open Text

/-! ### Headings by their order -/

section First

variable {Entry : Type} {p : Entry → Prop} {entries behind : List Entry} {first : Entry}

/-- The first of the entries with a property, and the entries behind it. -/
def FirstWith (p : Entry → Prop) (entries : List Entry) (first : Entry) (behind : List Entry) :
    Prop :=
  ∃ before, entries = before ++ first :: behind ∧ p first ∧ ∀ other ∈ before, ¬ p other

theorem FirstWith.mem (h : FirstWith p entries first behind) : first ∈ entries := by
  obtain ⟨before, rfl, -⟩ := h
  simp

theorem FirstWith.cons {other : Entry} (hother : ¬ p other)
    (h : FirstWith p entries first behind) : FirstWith p (other :: entries) first behind := by
  obtain ⟨before, rfl, hfirst, hbefore⟩ := h
  exact ⟨other :: before, rfl, hfirst, List.forall_mem_cons.mpr ⟨hother, hbefore⟩⟩

theorem firstWith_of_find?_eq_some {q : Entry → Bool} (h : entries.find? q = some first) :
    ∃ behind, FirstWith (fun entry => q entry = true) entries first behind := by
  obtain ⟨hfirst, before, behind, hentries, hbefore⟩ := List.find?_eq_some_iff_append.mp h
  exact ⟨behind, before, hentries, hfirst, fun other hother => by simpa using hbefore other hother⟩

end First

namespace Update

/-- No region holds the beginning of the heading's line. -/
def Outside (regions : List Region) (heading : PlacedHeading) : Prop :=
  ∀ region ∈ regions,
    ¬ (region.range.start ≤ heading.line.start ∧ heading.line.start < region.range.stop)

/-- The heading's title holds the text of the anchor, in any letter case. -/
def Names (anchor : Anchor) (heading : PlacedHeading) : Prop :=
  lowercase anchor.heading.toList <:+: lowercase heading.heading.title

/-- The heading is the one that the anchor names: the first one outside of the regions that it
could be. Behind it are the headings `behind`, those in regions among them. -/
def AnchorHeading (document : Text) (regions : List Region) (anchor : Anchor) :
    (heading : PlacedHeading) → (behind : List PlacedHeading) → Prop :=
  FirstWith (fun heading => Outside regions heading ∧ Names anchor heading) (Heading.all document)

/-- The place of a document that an anchor stands for. -/
inductive AnchoredAt (document : Text) (regions : List Region) (anchor : Anchor) : Nat → Prop where
  | missing : (∀ heading ∈ Heading.all document, Outside regions heading → ¬ Names anchor heading) →
      AnchoredAt document regions anchor (size document)
  | afterHeading {heading : PlacedHeading} {behind : List PlacedHeading} :
      AnchorHeading document regions anchor heading behind → anchor.placement = .afterHeading →
      AnchoredAt document regions anchor heading.line.stop
  | sectionEnd {heading next : PlacedHeading} {behind rest : List PlacedHeading} :
      AnchorHeading document regions anchor heading behind → anchor.placement = .endOfSection →
      FirstWith (fun other => Outside regions other ∧ other.heading.level ≤ heading.heading.level)
        behind next rest →
      AnchoredAt document regions anchor next.line.start
  | lastSection {heading : PlacedHeading} {behind : List PlacedHeading} :
      AnchorHeading document regions anchor heading behind → anchor.placement = .endOfSection →
      (∀ other ∈ behind, Outside regions other → heading.heading.level < other.heading.level) →
      AnchoredAt document regions anchor (size document)

/-! ### The search for the anchor -/

theorem regionAt?_eq_none_iff {regions : List Region} {heading : PlacedHeading} :
    (regionAt? regions heading.line.start).isNone = true ↔ Outside regions heading := by
  simp [regionAt?, Outside, Region.contains, Span.contains]

theorem anchored?_eq_none_iff {anchor : Anchor} {headings : List PlacedHeading} :
    anchored? anchor headings = none ↔ ∀ heading ∈ headings, ¬ Names anchor heading := by
  induction headings with
  | nil => simp [anchored?]
  | cons heading rest ih =>
    rw [anchored?, List.forall_mem_cons, Names, ← contains_eq_false_iff]
    cases contains (lowercase anchor.heading.toList) (lowercase heading.heading.title) <;>
      simp [ih]

theorem exists_of_anchored?_filter {free : PlacedHeading → Bool} {anchor : Anchor}
    {headings rest : List PlacedHeading} {heading : PlacedHeading}
    (h : anchored? anchor (headings.filter free) = some (heading, rest)) :
    ∃ behind, FirstWith (fun other => free other = true ∧ Names anchor other) headings heading
        behind ∧ rest = behind.filter free := by
  induction headings with
  | nil => contradiction
  | cons first others ih =>
    cases hfree : free first with
    | false =>
      rw [List.filter_cons_of_neg (by simp [hfree])] at h
      obtain ⟨behind, hfirst, hrest⟩ := ih h
      exact ⟨behind, hfirst.cons (by simp [hfree]), hrest⟩
    | true =>
      rw [List.filter_cons_of_pos hfree, anchored?] at h
      split at h
      · rename_i hnames
        cases h
        exact ⟨others, ⟨[], rfl, ⟨hfree, contains_eq_true_iff.mp hnames⟩, List.forall_mem_nil _⟩,
          rfl⟩
      · rename_i hnames
        rw [contains_eq_true_iff] at hnames
        obtain ⟨behind, hfirst, hrest⟩ := ih h
        exact ⟨behind, hfirst.cons fun hboth => hnames hboth.2, hrest⟩

theorem anchoredAt_anchorOffset (document : Text) (regions : List Region) (anchor : Anchor) :
    AnchoredAt document regions anchor (anchorOffset document regions anchor) := by
  rw [anchorOffset]
  split
  · rename_i heading rest hanchored
    obtain ⟨behind, hfirst, rfl⟩ := exists_of_anchored?_filter hanchored
    simp only [regionAt?_eq_none_iff] at hfirst
    split
    · rename_i hplacement
      exact .afterHeading hfirst hplacement
    · rename_i hplacement
      rw [sectionEnd, List.find?_filter]
      split
      · rename_i next hnext
        obtain ⟨rest, hnext⟩ := firstWith_of_find?_eq_some hnext
        simp only [regionAt?_eq_none_iff, decide_eq_true_eq] at hnext
        exact .sectionEnd hfirst hplacement hnext
      · rename_i hnone
        refine .lastSection hfirst hplacement fun other hother hout => ?_
        have hdeeper := List.find?_eq_none.mp hnone other hother
        simpa [regionAt?_eq_none_iff.mpr hout] using hdeeper
  · rename_i hnone
    refine .missing fun heading hmem hout => ?_
    exact anchored?_eq_none_iff.mp hnone heading
      (List.mem_filter.mpr ⟨hmem, regionAt?_eq_none_iff.mpr hout⟩)

/-! ### Regions and lines -/

end Update

theorem Layout.Meets.isLineEnd {layout : Layout} (hproper : layout.Proper) {offset : Nat}
    (h : layout.Meets offset) : IsLineEnd layout.text offset := by
  obtain ⟨before, after, rfl, rfl⟩ := h
  refine ⟨before.flatMap Stretch.pieces, after.flatMap Stretch.pieces, ?_, ?_⟩
  · rw [pieces_text hproper, List.flatMap_append]
  · rw [flatten_flatMap_pieces (proper_append.mp hproper).1]

theorem Layout.meets_of_mem_regions {layout : Layout} {region : Region}
    (h : region ∈ layout.regions 0) : layout.Meets region.range.start := by
  obtain ⟨before, name, opener, content, closer, after, rfl, rfl⟩ := exists_split_of_mem_regions h
  exact ⟨before, _, rfl, by simp [Region.placed]⟩

theorem Layout.Meets.le_or_le {layout : Layout} {offset : Nat} (h : layout.Meets offset)
    {region : Region} (hregion : region ∈ layout.regions 0) :
    offset ≤ region.range.start ∨ region.range.stop ≤ offset := by
  obtain ⟨before, name, opener, content, closer, after, rfl, rfl⟩ :=
    exists_split_of_mem_regions hregion
  obtain ⟨a, b, hlayout, rfl⟩ := h
  obtain ⟨middle, rfl, -⟩ | ⟨middle, rfl, -⟩ := split_at hlayout.symm
  · left
    simp [Region.placed]
  · right
    simp [Region.placed, Stretch.text, Nat.add_assoc]

namespace Update

/-- The place that is asked for lies in no region, but for one that begins there. -/
theorem newRegionOffset_eq {layout : Layout} (hproper : layout.Proper) (anchor : Anchor) :
    newRegionOffset layout.text (layout.regions 0) anchor =
      anchorOffset layout.text (layout.regions 0) anchor := by
  rw [newRegionOffset]
  split
  · rename_i region hregion
    have hmem := List.mem_of_find?_eq_some hregion
    have hcontains := List.find?_some hregion
    simp only [Region.contains, Span.contains, Bool.and_eq_true, decide_eq_true_eq] at hcontains
    have hbounds := Layout.bounds_of_mem_regions hmem
    have hanchored := anchoredAt_anchorOffset layout.text (layout.regions 0) anchor
    generalize anchorOffset layout.text (layout.regions 0) anchor = offset at *
    cases hanchored with
    | missing | lastSection => omega
    | sectionEnd _ _ hnext =>
      obtain ⟨-, -, ⟨hout, -⟩, -⟩ := hnext
      exact absurd hcontains (hout region hmem)
    | afterHeading hfirst =>
      obtain ⟨line, hline, hspan⟩ := exists_line_of_mem_all hfirst.mem
      obtain ⟨-, -, ⟨hout, -⟩, -⟩ := hfirst
      have hnot := hout region hmem
      -- the region does not begin within the line, and not in front of it, where it would hold it
      have hbegins := (Layout.meets_of_mem_regions hmem).isLineEnd hproper
      have hends := hbegins.le_or_le hline.1
      have hline := Line.start_le_stop hline.1
      rw [hspan] at hcontains hnot ⊢
      dsimp only at hcontains hnot ⊢
      omega
  · rfl

end Update

open Update

/-- A new region goes where the anchor asks for: a line begins there or the document ends, and no
region is cut. -/
theorem Update.newRegionOffset_anchored {document : Text} {found : Findings Region}
    (hfound : Region.ofDocument document = .ok found) (anchor : Anchor) :
    let offset := newRegionOffset document found.records anchor
    (offset = size document ∨ ∃ line ∈ Line.scan document, line.start = offset) ∧
      (∀ region ∈ found.records,
        ¬ (region.range.start < offset ∧ offset < region.range.stop)) ∧
      AnchoredAt document found.records anchor offset ∧
      offset = anchorOffset document found.records anchor := by
  obtain ⟨layout, hproper, -, rfl, hrecords⟩ := Region.exists_layout hfound
  rw [hrecords]
  have hoffset := newRegionOffset_eq hproper anchor
  have hmeets := meets_newRegionOffset hproper anchor
  refine ⟨(hmeets.isLineEnd hproper).eq_size_or_exists, fun region hregion hinside => ?_, ?_,
    hoffset⟩
  · have := hmeets.le_or_le hregion
    omega
  · rw [hoffset]
    exact anchoredAt_anchorOffset layout.text (layout.regions 0) anchor

/-- The heading in the region does not end the section, and neither does the deeper one. -/
theorem Update.newRegionOffset_anchored_section :
    let document := ("# Key Entities\n<!-- specgram:begin section=\"x\" -->\n# Within\n" ++
      "<!-- specgram:end section=\"x\" -->\n## Notes\n# Next\n").toList
    let anchor : Anchor := ⟨"key entities", .endOfSection⟩
    ∃ found, Region.ofDocument document = .ok found ∧ found.records.length = 1 ∧
      newRegionOffset document found.records anchor = 103 ∧
      AnchoredAt document found.records anchor 103 := by
  intro document anchor
  have hplace : (Region.ofDocument document).toOption.map (fun found =>
      (found.records.length, newRegionOffset document found.records anchor)) = some (1, 103) := by
    decide +kernel
  cases hfound : Region.ofDocument document with
  | error findings =>
    rw [hfound] at hplace
    contradiction
  | ok found =>
    have hoffset : found.records.length = 1 ∧
        newRegionOffset document found.records anchor = 103 := by
      simpa [hfound, Except.toOption] using hplace
    obtain ⟨-, -, hanchored, -⟩ := Update.newRegionOffset_anchored hfound anchor
    rw [hoffset.2] at hanchored
    exact ⟨found, rfl, hoffset.1, hoffset.2, hanchored⟩

end DiagramSync
