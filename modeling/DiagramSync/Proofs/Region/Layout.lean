import DiagramSync.Proofs.Document.Scan
import DiagramSync.Region.OfDocument

/-!
Layouts: a document as its markers cut it up, line by line outside of regions and region
by region.

The regions of a document are those of a layout of it (`Region.exists_layout`), and every
proper layout is found again in its text (`Layout.ofDocument_text`). So a change of regions
can be followed on layouts, where no offsets are needed.
-/

namespace DiagramSync

open Text

/-- A stretch of a document as its markers cut it up. -/
inductive Stretch where
  /-- A line outside of all regions. -/
  | plain (piece : Text)
  /-- A region: its begin marker's line, its content, and its end marker's line if it has one. -/
  | region (name : String) (opener content : Text) (closer : Option Text)
  deriving Repr, DecidableEq

/-- The marker that a piece holds. -/
def Marker.ofPiece? (piece : Text) : Option Marker :=
  Marker.parse? (Line.content piece)

/-- A piece that ends no line of its own region and begins no other one. -/
def Marker.Quiet (name : String) (piece : Text) : Prop :=
  ∀ marker, Marker.ofPiece? piece = some marker → marker.side = .ends ∧ marker.name ≠ name

namespace Stretch

def text : Stretch → Text
  | plain piece => piece
  | region _ opener content closer => opener ++ content ++ closer.getD []

def pieces : Stretch → List Text
  | plain piece => [piece]
  | region _ opener content closer => opener :: (Text.pieces content ++ closer.toList)

/-- Only a region can lack its end. -/
def terminated : Stretch → Bool
  | plain _ => true
  | region _ _ _ closer => closer.isSome

def name? : Stretch → Option String
  | plain _ => none
  | region name _ _ _ => some name

/-- What the parts of a region are. -/
structure MarkedRegion (name : String) (opener content : Text) (closer : Option Text) : Prop where
  opener_piece : IsPiece opener
  opener_marker : Marker.ofPiece? opener = some ⟨.begins, name⟩
  opener_whole : content ++ closer.getD [] ≠ [] → Whole opener
  content_quiet : ∀ piece ∈ Text.pieces content, Marker.Quiet name piece
  closer_piece : ∀ line ∈ closer, IsPiece line ∧ Marker.ofPiece? line = some ⟨.ends, name⟩
  content_whole : closer.isSome → Whole content

/-- The stretch is what it is taken for: a line is no begin marker, a region has the markers of
its name and no others that count. -/
def Marked : Stretch → Prop
  | plain piece =>
    IsPiece piece ∧ ∀ marker, Marker.ofPiece? piece = some marker → marker.side = .ends
  | region name opener content closer => MarkedRegion name opener content closer

/-- Something may follow the stretch. -/
def Closed (stretch : Stretch) : Prop :=
  stretch.terminated ∧ Whole stretch.text

theorem text_ne_nil {stretch : Stretch} (h : stretch.Marked) : stretch.text ≠ [] := by
  cases stretch with
  | plain piece => exact h.1.ne_nil
  | region name opener content closer => simp [text, h.opener_piece.ne_nil]

theorem pieces_text {stretch : Stretch} (h : stretch.Marked) :
    Text.pieces stretch.text = stretch.pieces := by
  cases stretch with
  | plain piece => exact h.1
  | region name opener content closer =>
    simp only [text, pieces, List.append_assoc]
    by_cases hempty : content ++ closer.getD [] = []
    · obtain ⟨rfl, hcloser⟩ := List.append_eq_nil_iff.mp hempty
      have hself : Text.pieces opener = [opener] := h.opener_piece
      cases closer with
      | none => simpa [Text.pieces] using hself
      | some line => exact absurd hcloser (h.closer_piece line rfl).1.ne_nil
    · rw [pieces_cons_of_whole h.opener_piece (h.opener_whole hempty)]
      cases closer with
      | none => simp
      | some line =>
        have hself : Text.pieces line = [line] := (h.closer_piece line rfl).1
        simp [pieces_append (h.content_whole rfl), hself]

end Stretch

/-- The record of a region that begins at the offset `start`. -/
def Region.placed (start : Nat) (name : String) (opener content : Text) (closer : Option Text) :
    Region where
  name
  range := ⟨start, start + size (Stretch.region name opener content closer).text⟩
  contentRange := ⟨start + size opener, start + size opener + size content⟩
  content := String.ofList content
  terminated := closer.isSome

/-- The stretches of a document in order. -/
abbrev Layout := List Stretch

namespace Layout

def text (layout : Layout) : Text :=
  layout.flatMap Stretch.text

@[simp] theorem text_nil : text [] = [] := rfl

@[simp] theorem text_cons (stretch : Stretch) (rest : Layout) :
    text (stretch :: rest) = stretch.text ++ text rest := rfl

@[simp] theorem text_append (a b : Layout) : text (a ++ b) = text a ++ text b := by
  simp [text]

/-- The names of the regions, in order. -/
def names (layout : Layout) : List String :=
  layout.filterMap Stretch.name?

@[simp] theorem names_nil : names [] = [] := rfl

@[simp] theorem names_plain (piece : Text) (rest : Layout) :
    names (.plain piece :: rest) = names rest := rfl

@[simp] theorem names_region (name : String) (opener content : Text) (closer : Option Text)
    (rest : Layout) : names (.region name opener content closer :: rest) = name :: names rest := rfl

@[simp] theorem names_append (a b : Layout) : names (a ++ b) = names a ++ names b := by
  simp [names]

/-- Every stretch is what it is taken for, and only the last one may end in the middle of a
line or lack its end marker. -/
def Proper : Layout → Prop
  | [] => True
  | stretch :: rest => stretch.Marked ∧ (rest ≠ [] → stretch.Closed) ∧ Proper rest

/-- The regions with their places, from the offset at which the layout begins. -/
def regions (start : Nat) : Layout → List Region
  | [] => []
  | .plain piece :: rest => regions (start + size piece) rest
  | .region name opener content closer :: rest =>
    .placed start name opener content closer ::
      regions (start + size (Stretch.region name opener content closer).text) rest

theorem proper_append {a b : Layout} :
    Proper (a ++ b) ↔ Proper a ∧ (b ≠ [] → ∀ stretch ∈ a, stretch.Closed) ∧ Proper b := by
  induction a with
  | nil => simp [Proper]
  | cons stretch rest ih =>
    simp only [List.cons_append, Proper, ih, List.append_eq_nil_iff, List.mem_cons, ne_eq,
      forall_eq_or_imp]
    tauto

theorem Proper.marked {layout : Layout} (h : layout.Proper) :
    ∀ stretch ∈ layout, stretch.Marked := by
  induction layout with
  | nil => simp
  | cons stretch rest ih =>
    simp only [List.mem_cons, forall_eq_or_imp]
    exact ⟨h.1, ih h.2.2⟩

theorem whole_text_of_closed {layout : Layout} (h : ∀ stretch ∈ layout, stretch.Closed) :
    Whole (text layout) := by
  induction layout with
  | nil => simp
  | cons stretch rest ih =>
    rw [List.forall_mem_cons] at h
    exact h.1.2.append (ih h.2)

theorem text_ne_nil {layout : Layout} (h : layout.Proper) (hne : layout ≠ []) :
    text layout ≠ [] := by
  cases layout with
  | nil => exact absurd rfl hne
  | cons stretch rest => simp [Stretch.text_ne_nil h.1]

theorem pieces_text {layout : Layout} (h : layout.Proper) :
    Text.pieces (text layout) = layout.flatMap Stretch.pieces := by
  induction layout with
  | nil => rfl
  | cons stretch rest ih =>
    obtain ⟨hmarked, hclosed, hrest⟩ := h
    by_cases hne : rest = []
    · subst hne
      simp [Stretch.pieces_text hmarked]
    · rw [text_cons, pieces_append (hclosed hne).2, Stretch.pieces_text hmarked, ih hrest]
      rfl

end Layout
end DiagramSync
