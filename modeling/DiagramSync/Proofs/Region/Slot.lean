import DiagramSync.Proofs.Region.Boundary
import DiagramSync.Proofs.Region.Location
import DiagramSync.Update

/-!
The place of one region's content in a layout. Whatever stands in it, what is in front of it
stays where it is, and what is behind its region only shifts.
-/

namespace DiagramSync

open Text Update

/-! ### Shifts -/

def Span.shift (n : Nat) (span : Span) : Span :=
  ⟨n + span.start, n + span.stop⟩

def Line.shift (n : Nat) (line : Line) : Line :=
  { line with start := n + line.start, stop := n + line.stop }

def Region.shift (n : Nat) (region : Region) : Region :=
  { region with range := region.range.shift n, contentRange := region.contentRange.shift n }

def PlacedHeading.shift (n : Nat) (heading : PlacedHeading) : PlacedHeading :=
  { heading with line := heading.line.shift n }

theorem Region.contains_shift (n : Nat) (region : Region) (offset : Nat) :
    (region.shift n).contains (n + offset) = region.contains offset := by
  simp [contains, shift, Span.contains, Span.shift]

namespace Line

theorem ofPieces_shift (n : Nat) (opened : Option Fence) (start : Nat) (pieces : List Text) :
    ofPieces opened (n + start) pieces = (ofPieces opened start pieces).map (shift n) := by
  induction pieces generalizing opened start with
  | nil => rfl
  | cons piece rest ih =>
    rw [ofPieces, ofPieces, List.map_cons, Nat.add_assoc, ih]
    rfl

theorem start_of_mem_ofPieces {opened : Option Fence} {start : Nat} {pieces : List Text}
    (hne : ∀ piece ∈ pieces, piece ≠ []) {line : Line} (h : line ∈ ofPieces opened start pieces) :
    start ≤ line.start ∧ line.start < start + size pieces.flatten ∧
      line.stop ≤ start + size pieces.flatten := by
  obtain ⟨before, piece, after, rfl, -, hstart, hstop, -⟩ := mem_ofPieces h
  have hpiece : size piece ≠ 0 := by simpa using hne piece (by simp)
  simp only [List.flatten_append, List.flatten_cons, size_append]
  omega

/-- The heading on a line, with its place. -/
def heading? (line : Line) : Option PlacedHeading :=
  (Heading.ofLine? line).map fun heading => ⟨heading, ⟨line.start, line.stop⟩⟩

theorem heading?_shift (n : Nat) (line : Line) :
    (line.shift n).heading? = line.heading?.map (PlacedHeading.shift n) := by
  rw [heading?, heading?, Option.map_map]
  rfl

/-- The headings on the lines of pieces. -/
def headings (opened : Option Fence) (start : Nat) (pieces : List Text) : List PlacedHeading :=
  (ofPieces opened start pieces).filterMap heading?

theorem headings_append (opened : Option Fence) (start : Nat) (a b : List Text) :
    headings opened start (a ++ b) = headings opened start a ++
      headings (Fence.after opened a) (start + size a.flatten) b := by
  rw [headings, ofPieces_append, List.filterMap_append]
  rfl

theorem headings_shift (n : Nat) (opened : Option Fence) (pieces : List Text) :
    headings opened n pieces = (headings opened 0 pieces).map (PlacedHeading.shift n) := by
  have hshift := ofPieces_shift n opened 0 pieces
  rw [Nat.add_zero] at hshift
  rw [headings, headings, hshift, List.filterMap_map, List.map_filterMap]
  congr 1
  funext line
  exact line.heading?_shift n

theorem bounds_of_mem_headings {opened : Option Fence} {start : Nat} {pieces : List Text}
    (hne : ∀ piece ∈ pieces, piece ≠ []) {heading : PlacedHeading}
    (h : heading ∈ headings opened start pieces) :
    start ≤ heading.line.start ∧ heading.line.start < start + size pieces.flatten ∧
      heading.line.stop ≤ start + size pieces.flatten := by
  obtain ⟨line, hline, hheading⟩ := List.mem_filterMap.mp h
  obtain ⟨found, -, rfl⟩ := Option.map_eq_some_iff.mp hheading
  exact start_of_mem_ofPieces hne hline

end Line

namespace Layout

theorem regions_shift (n start : Nat) (layout : Layout) :
    regions (n + start) layout = (regions start layout).map (Region.shift n) := by
  induction layout generalizing start with
  | nil => rfl
  | cons stretch rest ih =>
    cases stretch with
    | plain piece => rw [regions, regions, Nat.add_assoc, ih]
    | region name opener content closer =>
      rw [regions, regions, List.map_cons, Nat.add_assoc, ih]
      simp [Region.placed, Region.shift, Span.shift, Nat.add_assoc]

theorem bounds_of_mem_regions {start : Nat} {layout : Layout} {region : Region}
    (h : region ∈ regions start layout) :
    start ≤ region.range.start ∧ region.range.stop ≤ start + size layout.text := by
  obtain ⟨before, name, opener, content, closer, after, rfl, rfl⟩ := exists_split_of_mem_regions h
  simp only [Region.placed, text_append, text_cons, size_append]
  omega

theorem flatten_flatMap_pieces {layout : Layout} (hproper : layout.Proper) :
    (layout.flatMap Stretch.pieces).flatten = layout.text := by
  rw [← pieces_text hproper, flatten_pieces]

theorem ne_nil_of_mem_pieces {layout : Layout} (hproper : layout.Proper) :
    ∀ piece ∈ layout.flatMap Stretch.pieces, piece ≠ [] := by
  rw [← pieces_text hproper]
  exact fun piece hpiece => (isPiece_of_mem hpiece).ne_nil

/-- Whether a heading stands outside of the regions. -/
def isFree (layout : Layout) (heading : PlacedHeading) : Bool :=
  (regionAt? (layout.regions 0) heading.line.start).isNone

/-- The headings outside of the regions, where a fence is open in front of the layout. -/
def freeHeadings (opened : Option Fence) (layout : Layout) : List PlacedHeading :=
  (Line.headings opened 0 (layout.flatMap Stretch.pieces)).filter layout.isFree

theorem freeHeadings_text {layout : Layout} (hproper : layout.Proper) :
    Update.freeHeadings layout.text (layout.regions 0) = layout.freeHeadings none := by
  rw [freeHeadings, ← pieces_text hproper]
  rfl

theorem stop_of_mem_freeHeadings {opened : Option Fence} {layout : Layout}
    (hproper : layout.Proper) {heading : PlacedHeading}
    (h : heading ∈ layout.freeHeadings opened) :
    heading.line.start ≤ size layout.text ∧ heading.line.stop ≤ size layout.text := by
  have hbounds :=
    Line.bounds_of_mem_headings (ne_nil_of_mem_pieces hproper) (List.mem_filter.mp h).1
  rw [flatten_flatMap_pieces hproper, Nat.zero_add] at hbounds
  exact ⟨Nat.le_of_lt hbounds.2.1, hbounds.2.2⟩

end Layout

/-! ### Slots -/

/-- A layout around the content of one of its regions, which has its end marker. -/
structure Slot where
  before : Layout
  name : String
  opener : Text
  closer : Text
  after : Layout

namespace Slot

variable (slot : Slot) (content : Text)

/-- The layout with a content in the slot. -/
def fill : Layout :=
  slot.before ++ .region slot.name slot.opener content (some slot.closer) :: slot.after

/-- The document up to the content. -/
def front : Text :=
  slot.before.text ++ slot.opener

/-- The document from the end marker's line on. -/
def back : Text :=
  slot.closer ++ slot.after.text

/-- Where the region ends. -/
def stop : Nat :=
  size slot.front + size content + size slot.closer

/-- The region with its place. -/
def region : Region :=
  .placed (size slot.before.text) slot.name slot.opener content (some slot.closer)

theorem size_front : size slot.front = size slot.before.text + size slot.opener := by
  rw [front, size_append]

theorem text_fill : (slot.fill content).text = slot.front ++ (content ++ slot.back) := by
  simp [fill, front, back, Stretch.text]

theorem size_text_fill :
    size (slot.fill content).text = slot.stop content + size slot.after.text := by
  simp [text_fill, back, stop, Nat.add_assoc]

theorem names_fill :
    (slot.fill content).names = slot.before.names ++ slot.name :: slot.after.names := by
  simp [fill]

theorem range_region :
    (slot.region content).range = ⟨size slot.before.text, slot.stop content⟩ := by
  simp [region, Region.placed, Stretch.text, stop, front, Nat.add_assoc]

theorem regions_fill : (slot.fill content).regions 0 = slot.before.regions 0 ++
    slot.region content :: (slot.after.regions 0).map (Region.shift (slot.stop content)) := by
  have hstop : size slot.before.text +
      size (Stretch.region slot.name slot.opener content (some slot.closer)).text =
        slot.stop content := by
    simp [Stretch.text, stop, front, Nat.add_assoc]
  rw [fill, Layout.regions_append, Layout.regions, Nat.zero_add, hstop,
    ← Layout.regions_shift (slot.stop content) 0, Nat.add_zero]
  rfl

variable {slot content}

/-! ### Regions at a place -/

theorem regionAt?_before_of_le {offset : Nat} (h : size slot.before.text ≤ offset) :
    regionAt? (slot.before.regions 0) offset = none := by
  rw [regionAt?, List.find?_eq_none]
  intro region hregion
  have := Layout.bounds_of_mem_regions hregion
  simp only [Region.contains, Span.contains, Bool.and_eq_true, decide_eq_true_eq]
  omega

theorem regionAt?_fill_of_lt {offset : Nat} (h : offset < size slot.before.text) :
    regionAt? ((slot.fill content).regions 0) offset =
      regionAt? (slot.before.regions 0) offset := by
  have hrest : (slot.region content ::
      (slot.after.regions 0).map (Region.shift (slot.stop content))).find?
        (fun region => region.contains offset) = none := by
    rw [List.find?_eq_none, List.forall_mem_cons, List.forall_mem_map]
    constructor
    · simp only [Region.contains, Span.contains, range_region, Bool.and_eq_true,
        decide_eq_true_eq]
      omega
    · intro region _
      simp only [Region.contains, Span.contains, Region.shift, Span.shift, stop, size_front,
        Bool.and_eq_true, decide_eq_true_eq]
      omega
  rw [regionAt?, regions_fill, List.find?_append, hrest, Option.or_none]
  rfl

theorem regionAt?_fill_inside {offset : Nat} (hstart : size slot.before.text ≤ offset)
    (hstop : offset < slot.stop content) :
    regionAt? ((slot.fill content).regions 0) offset = some (slot.region content) := by
  have hnone := regionAt?_before_of_le hstart
  have hcontains : (slot.region content).contains offset = true := by
    simp only [Region.contains, Span.contains, range_region, Bool.and_eq_true, decide_eq_true_eq]
    exact ⟨hstart, hstop⟩
  rw [regionAt?] at hnone ⊢
  rw [regions_fill, List.find?_append, hnone, Option.none_or, List.find?_cons, hcontains]

theorem regionAt?_fill_behind (offset : Nat) :
    regionAt? ((slot.fill content).regions 0) (slot.stop content + offset) =
      (regionAt? (slot.after.regions 0) offset).map (Region.shift (slot.stop content)) := by
  have hstart : size slot.before.text ≤ slot.stop content + offset := by
    rw [stop, size_front]
    omega
  have hnone := regionAt?_before_of_le hstart
  have hcontains : (slot.region content).contains (slot.stop content + offset) = false := by
    simp only [Region.contains, Span.contains, range_region, Bool.and_eq_false_iff,
      decide_eq_false_iff_not]
    omega
  rw [regionAt?] at hnone ⊢
  simp only [regions_fill, List.find?_append, hnone, Option.none_or, List.find?_cons, hcontains,
    List.find?_map, Function.comp_def, Region.contains_shift]
  rfl

theorem isFree_fill_of_lt {heading : PlacedHeading}
    (h : heading.line.start < size slot.before.text) :
    (slot.fill content).isFree heading = slot.before.isFree heading := by
  rw [Layout.isFree, Layout.isFree, regionAt?_fill_of_lt h]

theorem isFree_fill_inside {heading : PlacedHeading}
    (hstart : size slot.before.text ≤ heading.line.start)
    (hstop : heading.line.start < slot.stop content) :
    (slot.fill content).isFree heading = false := by
  rw [Layout.isFree, regionAt?_fill_inside hstart hstop, Option.isNone_some]

theorem isFree_fill_shift (heading : PlacedHeading) :
    (slot.fill content).isFree (heading.shift (slot.stop content)) =
      slot.after.isFree heading := by
  rw [Layout.isFree, Layout.isFree, PlacedHeading.shift, Span.shift, regionAt?_fill_behind,
    Option.isNone_map]

/-! ### Headings -/

/-- The fence that is open behind the region. -/
def fenceBehind (slot : Slot) (content : Text) : Option Fence :=
  Fence.next (Fence.after (Fence.after none (Text.pieces slot.front)) (Text.pieces content))
    (Line.content slot.closer)

section Proper

variable (hproper : (slot.fill content).Proper)

include hproper in
theorem proper_before : slot.before.Proper :=
  (Layout.proper_append.mp hproper).1

include hproper in
theorem markedRegion :
    Stretch.MarkedRegion slot.name slot.opener content (some slot.closer) :=
  (Layout.proper_append.mp hproper).2.2.1

include hproper in
theorem isPiece_closer : IsPiece slot.closer :=
  ((markedRegion hproper).closer_piece slot.closer rfl).1

include hproper in
theorem whole_opener : Whole slot.opener :=
  (markedRegion hproper).opener_whole (by simp [(isPiece_closer hproper).ne_nil])

include hproper in
theorem size_before_lt_front : size slot.before.text < size slot.front := by
  have hopener : size slot.opener ≠ 0 := by
    simpa using (markedRegion hproper).opener_piece.ne_nil
  rw [size_front]
  omega

include hproper in
theorem pieces_front : Text.pieces slot.front =
    slot.before.flatMap Stretch.pieces ++ [slot.opener] := by
  have hclosed := (Layout.proper_append.mp hproper).2.1 (by simp)
  have hself : Text.pieces slot.opener = [slot.opener] := (markedRegion hproper).opener_piece
  rw [front, pieces_append (Layout.whole_text_of_closed hclosed),
    Layout.pieces_text (proper_before hproper), hself]

include hproper in
/-- The region's headings do not count, and those behind it shift. -/
theorem freeHeadings_fill : (slot.fill content).freeHeadings none =
    slot.before.freeHeadings none ++
      (slot.after.freeHeadings (slot.fenceBehind content)).map
        (PlacedHeading.shift (slot.stop content)) := by
  let own := slot.opener :: (Text.pieces content ++ [slot.closer])
  have hsplit : (slot.fill content).flatMap Stretch.pieces =
      slot.before.flatMap Stretch.pieces ++ (own ++ slot.after.flatMap Stretch.pieces) := by
    simp [fill, Stretch.pieces, own]
  have hsize : size slot.before.text + size own.flatten = slot.stop content := by
    simp [own, stop, front, flatten_pieces, Nat.add_assoc]
  have hfence : Fence.after (Fence.after none (slot.before.flatMap Stretch.pieces)) own =
      slot.fenceBehind content := by
    rw [fenceBehind, pieces_front hproper, Fence.after_append, Fence.after_cons,
      Fence.after_append]
    rfl
  have hne := Layout.ne_nil_of_mem_pieces hproper
  rw [hsplit, List.forall_mem_append, List.forall_mem_append] at hne
  have hbefore : (Line.headings none 0 (slot.before.flatMap Stretch.pieces)).filter
      (slot.fill content).isFree = slot.before.freeHeadings none := by
    apply List.filter_congr
    intro heading hmem
    have hbounds := Line.bounds_of_mem_headings hne.1 hmem
    rw [Layout.flatten_flatMap_pieces (proper_before hproper), Nat.zero_add] at hbounds
    exact isFree_fill_of_lt hbounds.2.1
  have hinside : (Line.headings (Fence.after none (slot.before.flatMap Stretch.pieces))
      (size slot.before.text) own).filter (slot.fill content).isFree = [] := by
    rw [List.filter_eq_nil_iff]
    intro heading hmem
    have hbounds := Line.bounds_of_mem_headings hne.2.1 hmem
    rw [hsize] at hbounds
    simp [isFree_fill_inside hbounds.1 hbounds.2.1]
  have hbehind : (Line.headings (slot.fenceBehind content) (slot.stop content)
      (slot.after.flatMap Stretch.pieces)).filter (slot.fill content).isFree =
        (slot.after.freeHeadings (slot.fenceBehind content)).map
          (PlacedHeading.shift (slot.stop content)) := by
    rw [Line.headings_shift, List.filter_map, Layout.freeHeadings]
    congr 2
    funext heading
    exact isFree_fill_shift heading
  rw [Layout.freeHeadings, hsplit, Line.headings_append, Line.headings_append, hfence,
    Layout.flatten_flatMap_pieces (proper_before hproper), Nat.zero_add, hsize,
    List.filter_append, List.filter_append, hbefore, hinside, hbehind, List.nil_append]

include hproper in
/-- The slot takes every content of whole lines without a marker that counts. -/
theorem proper_fill {content' : Text}
    (hquiet : ∀ piece ∈ Text.pieces content', Marker.Quiet slot.name piece)
    (hwhole : Whole content') : (slot.fill content').Proper := by
  obtain ⟨hbefore, hclosed, hmarked, hregion, hafter⟩ := Layout.proper_append.mp hproper
  refine Layout.proper_append.mpr ⟨hbefore, fun _ => hclosed (by simp), ?_, ?_, hafter⟩
  · exact {
      opener_piece := hmarked.opener_piece
      opener_marker := hmarked.opener_marker
      opener_whole := fun _ => whole_opener hproper
      content_quiet := hquiet
      closer_piece := hmarked.closer_piece
      content_whole := fun _ => hwhole }
  · intro hne
    have hcloser := (isPiece_closer hproper).ne_nil
    have hend := (hregion hne).2
    refine ⟨rfl, ?_⟩
    rw [Stretch.text, Option.getD_some, whole_append_iff hcloser] at hend ⊢
    exact hend

include hproper in
/-- A content that another slot of the name holds fits in. -/
theorem proper_fill_of {slot' : Slot} {content' : Text} (hproper' : (slot'.fill content').Proper)
    (hname : slot'.name = slot.name) : (slot.fill content').Proper := by
  have hmarked := markedRegion hproper'
  rw [hname] at hmarked
  exact proper_fill hproper hmarked.content_quiet (hmarked.content_whole rfl)

end Proper

/-! ### Slots of a document -/

theorem exists_fill {document : Text} {found : Findings Region}
    (hfound : Region.ofDocument document = .ok found) {region : Region}
    (hregion : region ∈ found.records) (hterminated : region.terminated = true) :
    ∃ slot : Slot, (slot.fill region.content.toList).Proper ∧
      (slot.fill region.content.toList).names.Nodup ∧
      document = (slot.fill region.content.toList).text ∧
      found.records = (slot.fill region.content.toList).regions 0 ∧
      slot.name = region.name ∧
      region.contentRange =
        ⟨size slot.front, size slot.front + size region.content.toList⟩ := by
  obtain ⟨layout, hproper, hnodup, rfl, hrecords⟩ := Region.exists_layout hfound
  rw [hrecords] at hregion
  obtain ⟨before, name, opener, content, closer, after, rfl, rfl⟩ :=
    Layout.exists_split_of_mem_regions hregion
  obtain ⟨line, rfl⟩ := Option.isSome_iff_exists.mp hterminated
  have hcontent : (String.ofList content).toList = content := String.toList_ofList
  refine ⟨⟨before, name, opener, line, after⟩, ?_⟩
  simp only [Region.placed, hcontent, Nat.zero_add, Slot.size_front, and_true]
  exact ⟨hproper, hnodup, rfl, hrecords⟩

theorem takeBytes_front (content : Text) :
    takeBytes (size slot.front) (slot.fill content).text = slot.front := by
  rw [text_fill, takeBytes_size_append]

theorem dropBytes_back (content : Text) :
    dropBytes (size slot.front + size content) (slot.fill content).text = slot.back := by
  rw [text_fill, ← List.append_assoc, ← size_append, dropBytes_size_append]

end Slot

end DiagramSync
