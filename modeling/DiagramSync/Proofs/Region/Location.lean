import DiagramSync.Proofs.Findings
import DiagramSync.Proofs.Region.Layout

/-!
The walk over the markers of a document finds the regions of a layout, and finds the
regions of every proper layout. Both directions are inductions over the walk: the first
over the pieces, with the region that is open, the second over the stretches.
-/

namespace DiagramSync

open Text

/-! ### Marker lines -/

namespace Marker

/-- The lines of some pieces that are markers. -/
def linesOf (opened : Option Fence) (start : Nat) (pieces : List Text) : List (Line × Marker) :=
  (Line.ofPieces opened start pieces).filterMap fun line =>
    (parse? line.text).map fun marker => (line, marker)

@[simp] theorem linesOf_nil (opened : Option Fence) (start : Nat) :
    linesOf opened start [] = [] := rfl

theorem linesOf_cons_none {piece : Text} (h : ofPiece? piece = none)
    (opened : Option Fence) (start : Nat) (rest : List Text) :
    linesOf opened start (piece :: rest) =
      linesOf (Fence.next opened (Line.content piece)) (start + size piece) rest := by
  rw [ofPiece?] at h
  simp [linesOf, Line.ofPieces, h]

theorem linesOf_cons_some {piece : Text} {marker : Marker} (h : ofPiece? piece = some marker)
    (opened : Option Fence) (start : Nat) (rest : List Text) :
    linesOf opened start (piece :: rest) =
      (⟨Line.content piece, start, start + size piece, Fence.holds opened (Line.content piece)⟩,
        marker) ::
      linesOf (Fence.next opened (Line.content piece)) (start + size piece) rest := by
  rw [ofPiece?] at h
  simp [linesOf, Line.ofPieces, h]

end Marker

namespace Region

theorem markerLines_eq (document : Text) :
    markerLines document = Marker.linesOf none 0 (pieces document) := rfl

/-! ### Steps of the walk -/

section Steps

variable {document : Text} {seen : List (String × Span)} {line : Line} {name : String}
  {rest : List (Line × Marker)}

theorem pairUp_begins_inside (outer : Opening) :
    (pairUp document (some outer) seen ((line, ⟨.begins, name⟩) :: rest)).fails = true := by
  simp [pairUp, nested, Diagnostic.isError]

theorem pairUp_begins_again (h : seen.lookup name ≠ none) :
    (pairUp document none seen ((line, ⟨.begins, name⟩) :: rest)).fails = true := by
  obtain ⟨first, hfirst⟩ := Option.ne_none_iff_exists'.mp h
  simp [pairUp, hfirst, duplicate, Diagnostic.isError]

theorem pairUp_begins (h : seen.lookup name = none) :
    pairUp document none seen ((line, ⟨.begins, name⟩) :: rest) =
      pairUp document (some ⟨name, line⟩) (seen ++ [(name, line.span)]) rest := by
  simp [pairUp, h]

theorem pairUp_ends (opening : Opening) (h : opening.name = name) :
    pairUp document (some opening) seen ((line, ⟨.ends, name⟩) :: rest) =
      (pairUp document none seen rest).cons
        (opening.close document line.start line.stop true) := by
  simp [pairUp, h]

theorem pairUp_stray {opened : Option Opening} (h : ∀ opening ∈ opened, opening.name ≠ name) :
    pairUp document opened seen ((line, ⟨.ends, name⟩) :: rest) =
      (pairUp document opened seen rest).warn (strayEnd name line) := by
  cases opened with
  | none => rfl
  | some opening => simp [pairUp, h opening rfl]

end Steps

@[simp] theorem isError_strayEnd (name : String) (line : Line) :
    (strayEnd name line).isError = false := rfl

@[simp] theorem isError_unterminated (opening : Opening) :
    (unterminated opening).isError = false := rfl

/-! ### What is passed over -/

/-- Two walks find the same regions and agree on whether the markers are ambiguous. -/
def Agree (first second : Findings Region) : Prop :=
  first.records = second.records ∧ first.fails = second.fails

/-- A piece that is no begin marker and does not end the open region is passed over. -/
theorem agree_cons (document : Text) (opened : Option Opening) (seen : List (String × Span))
    {piece : Text}
    (hquiet : ∀ marker, Marker.ofPiece? piece = some marker →
      marker.side = .ends ∧ ∀ opening ∈ opened, opening.name ≠ marker.name)
    (fence : Option Fence) (start : Nat) (rest : List Text) :
    Agree (pairUp document opened seen (Marker.linesOf fence start (piece :: rest)))
      (pairUp document opened seen
        (Marker.linesOf (Fence.next fence (Line.content piece)) (start + size piece) rest)) := by
  cases hmarker : Marker.ofPiece? piece with
  | none =>
    rw [Marker.linesOf_cons_none hmarker]
    exact ⟨rfl, rfl⟩
  | some marker =>
    obtain ⟨hside, hname⟩ := hquiet marker hmarker
    obtain ⟨side, name⟩ := marker
    subst hside
    rw [Marker.linesOf_cons_some hmarker, pairUp_stray hname]
    exact ⟨rfl, rfl⟩

theorem agree_append (document : Text) (opening : Opening) (seen : List (String × Span))
    {content : List Text} (hquiet : ∀ piece ∈ content, Marker.Quiet opening.name piece)
    (fence : Option Fence) (start : Nat) (rest : List Text) :
    Agree (pairUp document (some opening) seen (Marker.linesOf fence start (content ++ rest)))
      (pairUp document (some opening) seen
        (Marker.linesOf (Fence.after fence content) (start + size content.flatten) rest)) := by
  induction content generalizing fence start with
  | nil => exact ⟨rfl, rfl⟩
  | cons piece others ih =>
    rw [List.forall_mem_cons] at hquiet
    have hpiece : ∀ marker, Marker.ofPiece? piece = some marker →
        marker.side = .ends ∧ ∀ inner ∈ some opening, inner.name ≠ marker.name := by
      intro marker hmarker
      obtain ⟨hside, hname⟩ := hquiet.1 marker hmarker
      simp [hside, Ne.symm hname]
    obtain ⟨hrecords, hfails⟩ :=
      agree_cons document _ seen hpiece fence start (others ++ rest)
    obtain ⟨hrecords', hfails'⟩ :=
      ih hquiet.2 (Fence.next fence (Line.content piece)) (start + size piece)
    simp only [List.flatten_cons, size_append, ← Nat.add_assoc]
    exact ⟨hrecords.trans hrecords', hfails.trans hfails'⟩

/-! ### From a walk to a layout -/

/-- A region that is open in front of the pieces `rest`, with what was read of it. -/
structure Pending (name : String) (opener content : Text) (rest : List Text) : Prop where
  opener_piece : IsPiece opener
  opener_marker : Marker.ofPiece? opener = some ⟨.begins, name⟩
  opener_whole : content ++ rest.flatten ≠ [] → Whole opener
  content_whole : rest ≠ [] → Whole content
  content_quiet : ∀ piece ∈ pieces content, Marker.Quiet name piece

theorem Pending.step {name : String} {opener content piece : Text} {rest : List Text}
    (h : Pending name opener content (piece :: rest)) (hquiet : Marker.Quiet name piece)
    (hpieces : pieces (piece :: rest).flatten = piece :: rest) :
    Pending name opener (content ++ piece) rest where
  opener_piece := h.opener_piece
  opener_marker := h.opener_marker
  opener_whole := by
    intro hne
    exact h.opener_whole (by simpa using hne)
  content_whole := fun hne =>
    (h.content_whole (by simp)).append ((pieces_eq_cons hpieces).2.1 hne)
  content_quiet := by
    have hself : pieces piece = [piece] := (pieces_eq_cons hpieces).1
    rw [pieces_append (h.content_whole (by simp)), hself]
    intro other hother
    rw [List.mem_append, List.mem_singleton] at hother
    obtain hother | rfl := hother
    · exact h.content_quiet other hother
    · exact hquiet

/-- The region that an end marker's line or the end of the document closes. -/
theorem Pending.marked {name : String} {opener content : Text} {rest : List Text}
    (h : Pending name opener content rest) {closer : Option Text}
    (hcloser : ∀ line ∈ closer, IsPiece line ∧ Marker.ofPiece? line = some ⟨.ends, name⟩)
    (hopener : content ++ closer.getD [] ≠ [] → Whole opener)
    (hcontent : closer.isSome → Whole content) :
    (Stretch.region name opener content closer).Marked where
  opener_piece := h.opener_piece
  opener_marker := h.opener_marker
  opener_whole := hopener
  content_quiet := h.content_quiet
  closer_piece := hcloser
  content_whole := hcontent

/-- What a walk without an error finds from an offset on is a layout of the text there, with
names that were not seen before. -/
def Finds (layout : Layout) (start : Nat) (seen : List (String × Span)) (text : Text)
    (found : Findings Region) : Prop :=
  layout.Proper ∧ layout.text = text ∧ found.records = layout.regions start ∧
    layout.names.Nodup ∧ ∀ name ∈ layout.names, seen.lookup name = none

/-- The same with a region that is open: its name was seen already. -/
def FindsOpen (name : String) (opener : Text) (start : Nat) (seen : List (String × Span))
    (text : Text) (found : Findings Region) : Prop :=
  ∃ content closer rest, Layout.Proper (.region name opener content closer :: rest) ∧
    Layout.text (.region name opener content closer :: rest) = text ∧
    found.records = Layout.regions start (.region name opener content closer :: rest) ∧
    (Layout.names rest).Nodup ∧ ∀ name ∈ Layout.names rest, seen.lookup name = none

theorem finds_plain {layout : Layout} {start : Nat} {seen : List (String × Span)}
    {piece : Text} {rest : List Text} {found found' : Findings Region}
    (hpieces : pieces (piece :: rest).flatten = piece :: rest)
    (hmarker : ∀ marker, Marker.ofPiece? piece = some marker → marker.side = .ends)
    (hfound : Finds layout (start + size piece) seen rest.flatten found)
    (hsame : found'.records = found.records) :
    Finds (.plain piece :: layout) start seen (piece :: rest).flatten found' := by
  obtain ⟨hproper, htext, hrecords, hnodup, hfresh⟩ := hfound
  obtain ⟨hpiece, hwhole, -⟩ := pieces_eq_cons hpieces
  refine ⟨⟨⟨hpiece, hmarker⟩, fun hne => ⟨rfl, hwhole ?_⟩, hproper⟩, ?_, ?_, hnodup, hfresh⟩
  · rintro rfl
    exact Layout.text_ne_nil hproper hne htext
  · simp [Stretch.text, htext]
  · rw [hsame, hrecords]
    rfl

theorem lookup_snoc_self (seen : List (String × Span)) (name : String) (span : Span) :
    (seen ++ [(name, span)]).lookup name ≠ none := by
  rw [List.lookup_append]
  cases seen.lookup name <;> simp

theorem lookup_snoc_eq_none {seen : List (String × Span)} {name other : String} {span : Span}
    (h : (seen ++ [(name, span)]).lookup other = none) :
    seen.lookup other = none ∧ other ≠ name := by
  rw [List.lookup_append, Option.or_eq_none_iff] at h
  refine ⟨h.1, ?_⟩
  rintro rfl
  simp at h

/-- The walk over `rest`, from outside of all regions on, finds a layout unless it fails. -/
def LaysOut (document : Text) (rest : List Text) : Prop :=
  ∀ fence seen before, document = before ++ rest.flatten →
    let found := pairUp document none seen (Marker.linesOf fence (size before) rest)
    found.fails = false → ∃ layout, Finds layout (size before) seen rest.flatten found

/-- The walk over `rest`, from inside of a region on, finds a layout unless it fails. -/
def LaysOutOpen (document : Text) (rest : List Text) : Prop :=
  ∀ fence seen before name opener content line,
    document = before ++ (opener ++ (content ++ rest.flatten)) →
    line.start = size before → line.stop = size before + size opener →
    Pending name opener content rest → seen.lookup name ≠ none →
    let found := pairUp document (some ⟨name, line⟩) seen
      (Marker.linesOf fence (size before + size opener + size content) rest)
    found.fails = false →
      FindsOpen name opener (size before) seen (opener ++ (content ++ rest.flatten)) found

theorem laysOut_nil (document : Text) : LaysOut document [] := by
  intro fence seen before _ found _
  exact ⟨[], by simp [found, Finds, Layout.Proper, pairUp, Layout.regions]⟩

theorem laysOut_cons {document piece : Text} {rest : List Text}
    (hpieces : pieces (piece :: rest).flatten = piece :: rest) (hrest : LaysOut document rest)
    (hopen : LaysOutOpen document rest) : LaysOut document (piece :: rest) := by
  intro fence seen before hdocument found hfails
  by_cases hends : ∀ marker, Marker.ofPiece? piece = some marker → marker.side = .ends
  · have hagree := agree_cons document none seen
      (fun marker hmarker => ⟨hends marker hmarker, by simp⟩) fence (size before) rest
    rw [← size_append] at hagree
    obtain ⟨layout, hfinds⟩ := hrest (Fence.next fence (Line.content piece)) seen
      (before ++ piece) (by simpa using hdocument) (hagree.2.symm.trans hfails)
    simp only [size_append] at hfinds hagree
    exact ⟨_, finds_plain hpieces hends hfinds hagree.1⟩
  · push Not at hends
    obtain ⟨⟨side, name⟩, hmarker, hside⟩ := hends
    obtain rfl : side = .begins := by
      cases side with
      | begins => rfl
      | ends => exact absurd rfl hside
    have hlines := Marker.linesOf_cons_some hmarker fence (size before) rest
    by_cases hseen : seen.lookup name = none
    · have hpending : Pending name piece [] rest := by
        obtain ⟨hpiece, hwhole, -⟩ := pieces_eq_cons hpieces
        refine ⟨hpiece, hmarker, fun hne => hwhole ?_, by simp, by simp [pieces]⟩
        rintro rfl
        simp at hne
      simp only [found, hlines, pairUp_begins hseen] at hfails ⊢
      obtain ⟨content, closer, tail, hproper, htext, hrecords, hnodup, hfresh⟩ :=
        hopen _ _ before name piece [] _ (by simpa using hdocument) rfl rfl hpending
          (lookup_snoc_self seen name _) (by simpa using hfails)
      refine ⟨_, hproper, by simpa using htext, by simpa using hrecords, ?_, ?_⟩
      · rw [Layout.names_region, List.nodup_cons]
        exact ⟨fun hmem => (lookup_snoc_eq_none (hfresh name hmem)).2 rfl, hnodup⟩
      · rw [Layout.names_region, List.forall_mem_cons]
        exact ⟨hseen, fun other hmem => (lookup_snoc_eq_none (hfresh other hmem)).1⟩
    · simp only [found, hlines, pairUp_begins_again hseen] at hfails
      contradiction

/-- An opening is closed to the region that the layout has there. -/
theorem close_eq_placed {document before opener content after : Text} {closer : Option Text}
    {name : String} {line : Line}
    (hdocument : document = before ++ (opener ++ (content ++ (closer.getD [] ++ after))))
    (hstart : line.start = size before) (hstop : line.stop = size before + size opener)
    {contentStop stop : Nat} (hcontent : contentStop = size before + size opener + size content)
    (hend : stop = contentStop + size (closer.getD [])) :
    Opening.close ⟨name, line⟩ document contentStop stop closer.isSome =
      Region.placed (size before) name opener content closer := by
  have hslice : slice (size before + size opener) contentStop document = content := by
    rw [hdocument, hcontent, ← size_append, ← List.append_assoc, slice_append]
  rw [Opening.close, hstart, hstop, hslice, hend, hcontent]
  simp only [Region.placed, Stretch.text, size_append, Nat.add_assoc]

theorem laysOutOpen_nil (document : Text) : LaysOutOpen document [] := by
  intro fence seen before name opener content line hdocument hstart hstop hpending _ found _
  refine ⟨content, none, [], ⟨hpending.marked (by simp) ?_ (by simp), by simp, trivial⟩, ?_⟩
  · simpa using hpending.opener_whole
  · have hsize : size document = size before + size opener + size content := by
      simp [hdocument, Nat.add_assoc]
    have hclose : Opening.close ⟨name, line⟩ document (size document) (size document) false =
        .placed (size before) name opener content none :=
      @close_eq_placed _ _ _ _ [] none _ _ (by simpa using hdocument) hstart hstop _ _ hsize rfl
    refine ⟨by simp [Stretch.text], ?_, by simp⟩
    simp only [found, Marker.linesOf_nil, pairUp, hclose, Layout.regions]

theorem laysOutOpen_cons {document piece : Text} {rest : List Text}
    (hpieces : pieces (piece :: rest).flatten = piece :: rest) (hrest : LaysOut document rest)
    (hopen : LaysOutOpen document rest) : LaysOutOpen document (piece :: rest) := by
  intro fence seen before name opener content line hdocument hstart hstop hpending hseen found
    hfails
  by_cases hquiet : Marker.Quiet name piece
  · have hagree := agree_cons document (some ⟨name, line⟩) seen
      (fun marker hmarker => ⟨(hquiet marker hmarker).1, by
        simpa [eq_comm] using (hquiet marker hmarker).2⟩)
      fence (size before + size opener + size content) rest
    obtain ⟨inner, closer, tail, hproper, htext, hrecords, htail⟩ :=
      hopen (Fence.next fence (Line.content piece)) seen before name opener (content ++ piece)
        line (by simpa using hdocument) hstart hstop (hpending.step hquiet hpieces) hseen
        (by simpa [Nat.add_assoc] using hagree.2.symm.trans hfails)
    refine ⟨inner, closer, tail, hproper, by simpa using htext, ?_, htail⟩
    rw [← hrecords, hagree.1]
    simp [Nat.add_assoc]
  · simp only [Marker.Quiet, not_forall] at hquiet
    obtain ⟨⟨side, other⟩, hmarker, hside⟩ := hquiet
    have hlines := Marker.linesOf_cons_some hmarker fence
      (size before + size opener + size content) rest
    cases side with
    | begins =>
      simp only [found, hlines, pairUp_begins_inside] at hfails
      contradiction
    | ends =>
      obtain rfl : other = name := by simpa using hside
      simp only [found, hlines, pairUp_ends ⟨other, line⟩ rfl, Findings.fails_cons] at hfails ⊢
      obtain ⟨layout, hproper, htext, hrecords, hnodup, hfresh⟩ :=
        hrest (Fence.next fence (Line.content piece)) seen
          (before ++ (opener ++ (content ++ piece))) (by simpa using hdocument)
          (by simpa [Nat.add_assoc] using hfails)
      obtain ⟨hpiece, hwhole, -⟩ := pieces_eq_cons hpieces
      have hopener : Whole opener := hpending.opener_whole (by simp [hpiece.ne_nil])
      have hcontent : Whole content := hpending.content_whole (by simp)
      refine ⟨content, some piece, layout, ⟨?_, fun hne => ⟨rfl, ?_⟩, hproper⟩, ?_, ?_, hnodup,
        hfresh⟩
      · exact hpending.marked (by simpa using ⟨hpiece, hmarker⟩) (fun _ => hopener)
          (fun _ => hcontent)
      · refine (hopener.append hcontent).append (hwhole ?_)
        rintro rfl
        exact Layout.text_ne_nil hproper hne htext
      · simp [Stretch.text, htext]
      · have hclose : Opening.close ⟨other, line⟩ document
            (size before + size opener + size content)
            (size before + size opener + size content + size piece) true =
            .placed (size before) other opener content (some piece) :=
          @close_eq_placed _ _ _ _ rest.flatten (some piece) _ _ (by simpa using hdocument)
            hstart hstop _ _ rfl rfl
        simp only [size_append, ← Nat.add_assoc] at hrecords
        rw [Findings.records_cons, Layout.regions, hclose, hrecords]
        simp [Stretch.text, Nat.add_assoc]

theorem exists_layout_of_pairUp (document : Text) (rest : List Text)
    (hpieces : pieces rest.flatten = rest) : LaysOut document rest ∧ LaysOutOpen document rest := by
  induction rest with
  | nil => exact ⟨laysOut_nil document, laysOutOpen_nil document⟩
  | cons piece rest ih =>
    obtain ⟨hrest, hopen⟩ := ih (pieces_eq_cons hpieces).2.2
    exact ⟨laysOut_cons hpieces hrest hopen, laysOutOpen_cons hpieces hrest hopen⟩

/-- The regions of a document that is accepted are those of a layout of it. -/
theorem exists_layout {document : Text} {found : Findings Region}
    (h : ofDocument document = .ok found) :
    ∃ layout : Layout, layout.Proper ∧ layout.names.Nodup ∧ layout.text = document ∧
      found.records = layout.regions 0 := by
  have hflatten := flatten_pieces document
  have hlays := (exists_layout_of_pairUp document (pieces document) (by rw [hflatten])).1
  rw [ofDocument, markerLines_eq] at h
  split at h
  · contradiction
  · rename_i hfails
    cases h
    obtain ⟨layout, hproper, htext, hrecords, hnodup, -⟩ :=
      hlays none [] [] (by simp [hflatten]) (by simpa [Findings.fails] using hfails)
    exact ⟨layout, hproper, hnodup, htext.trans hflatten, hrecords⟩

/-- What is told of the findings about a document that is accepted, if it is. -/
theorem exists_found {α : Type} {document : Text} {f : Findings Region → α} {value : α}
    (h : (ofDocument document).toOption.map f = some value) :
    ∃ found, ofDocument document = .ok found ∧ f found = value := by
  cases hfound : ofDocument document with
  | error findings =>
    rw [hfound] at h
    contradiction
  | ok found =>
    rw [hfound] at h
    exact ⟨found, rfl, Option.some.inj h⟩

/-! ### From a layout to a walk -/

theorem lookup_snoc_of_ne {seen : List (String × Span)} {name other : String} (span : Span)
    (hother : seen.lookup other = none) (hne : other ≠ name) :
    (seen ++ [(name, span)]).lookup other = none := by
  rw [List.lookup_append, hother, Option.none_or, List.lookup_cons, beq_false_of_ne hne]
  rfl

/-- The walk over a region up to its end marker or the end of the document. -/
theorem pairUp_region (document : Text) {name : String} {opener content : Text}
    {closer : Option Text} (hmarked : Stretch.MarkedRegion name opener content closer)
    (fence : Option Fence) (seen : List (String × Span)) (start : Nat) (rest : List Text)
    (hseen : seen.lookup name = none) :
    ∃ fence' line, line.start = start ∧ line.stop = start + size opener ∧
      Agree
        (pairUp document none seen
          (Marker.linesOf fence start (opener :: (pieces content ++ rest))))
        (pairUp document (some ⟨name, line⟩) (seen ++ [(name, line.span)])
          (Marker.linesOf fence' (start + size opener + size content) rest)) := by
  rw [Marker.linesOf_cons_some hmarked.opener_marker, pairUp_begins hseen]
  let line : Line := ⟨Line.content opener, start, start + size opener,
    Fence.holds fence (Line.content opener)⟩
  have hagree := agree_append document ⟨name, line⟩ (seen ++ [(name, line.span)])
    hmarked.content_quiet
    (Fence.next fence (Line.content opener)) (start + size opener) rest
  rw [flatten_pieces] at hagree
  exact ⟨_, line, rfl, rfl, hagree⟩

theorem pairUp_layout (document : Text) (layout : Layout) (hproper : layout.Proper)
    (fence : Option Fence) (seen : List (String × Span)) (before : Text)
    (hnodup : layout.names.Nodup) (hfresh : ∀ name ∈ layout.names, seen.lookup name = none)
    (hdocument : document = before ++ layout.text) :
    let found := pairUp document none seen
      (Marker.linesOf fence (size before) (layout.flatMap Stretch.pieces))
    found.records = layout.regions (size before) ∧ found.fails = false := by
  induction layout generalizing fence seen before with
  | nil => simp [pairUp, Layout.regions]
  | cons stretch rest ih =>
    obtain ⟨hmarked, hclosed, hrest⟩ := hproper
    cases stretch with
    | plain piece =>
      have hagree := agree_cons document none seen
        (fun marker hmarker => ⟨hmarked.2 marker hmarker, by simp⟩) fence (size before)
        (rest.flatMap Stretch.pieces)
      have hfound := ih hrest (Fence.next fence (Line.content piece)) seen (before ++ piece)
        hnodup hfresh (by simpa [Stretch.text] using hdocument)
      rw [size_append] at hfound
      exact ⟨hagree.1.trans hfound.1, hagree.2.trans hfound.2⟩
    | region name opener content closer =>
      rw [Layout.names_region, List.nodup_cons] at hnodup
      rw [Layout.names_region, List.forall_mem_cons] at hfresh
      obtain ⟨fence', line, hstart, hstop, hrecords, hfails⟩ :=
        pairUp_region document hmarked fence seen (size before)
          (closer.toList ++ rest.flatMap Stretch.pieces) hfresh.1
      simp only [List.flatMap_cons, Stretch.pieces, List.cons_append, List.append_assoc]
      rw [hrecords, hfails]
      have hsplit : document =
          before ++ (opener ++ (content ++ (closer.getD [] ++ Layout.text rest))) := by
        simpa [Stretch.text] using hdocument
      cases closer with
      | none =>
        have hnil : rest = [] := by
          by_contra hne
          exact absurd (hclosed hne).1 (by simp [Stretch.terminated])
        subst hnil
        have hsize : size document = size before + size opener + size content := by
          simp [hdocument, Stretch.text, Nat.add_assoc]
        have hclose : Opening.close ⟨name, line⟩ document (size document) (size document) false =
            .placed (size before) name opener content none :=
          @close_eq_placed _ _ _ _ _ none _ _ hsplit hstart hstop _ _ hsize rfl
        simp [pairUp, Layout.regions, hclose, Findings.fails]
      | some last =>
        have hlast := (hmarked.closer_piece last rfl).2
        rw [Option.toList_some, List.singleton_append, Marker.linesOf_cons_some hlast,
          pairUp_ends _ rfl]
        have hfound := ih hrest (Fence.next fence' (Line.content last))
          (seen ++ [(name, line.span)]) (before ++ (opener ++ (content ++ last))) hnodup.2
          (fun other hother => lookup_snoc_of_ne _ (hfresh.2 other hother)
            (by rintro rfl; exact hnodup.1 hother))
          (by simpa [Stretch.text] using hdocument)
        have hclose : Opening.close ⟨name, line⟩ document
            (size before + size opener + size content)
            (size before + size opener + size content + size last) true =
            .placed (size before) name opener content (some last) :=
          @close_eq_placed _ _ _ _ _ (some last) _ _ hsplit hstart hstop _ _ rfl rfl
        simp only [size_append, Nat.add_assoc] at hfound hclose
        simp [hfound, Layout.regions, hclose, Stretch.text, Nat.add_assoc]

end Region

/-- A proper layout with distinct names is found again in its text. -/
theorem Layout.ofDocument_text {layout : Layout} (hproper : layout.Proper)
    (hnodup : layout.names.Nodup) :
    ∃ found, Region.ofDocument layout.text = .ok found ∧ found.records = layout.regions 0 := by
  obtain ⟨hrecords, hfails⟩ := Region.pairUp_layout layout.text layout hproper none [] [] hnodup
    (by simp) rfl
  rw [← pieces_text hproper, size_nil, ← Region.markerLines_eq] at hrecords hfails
  refine ⟨_, ?_, hrecords⟩
  rw [Region.ofDocument]
  exact if_neg (by simpa [Findings.fails] using hfails)

/-! ### Begin markers behind an open region -/

namespace Region

theorem fails_layout_append {document : Text} {rest : List Text}
    (hrest : ∀ fence seen start,
      (pairUp document none seen (Marker.linesOf fence start rest)).fails = true)
    {layout : Layout} (hproper : layout.Proper) (hclosed : ∀ stretch ∈ layout, stretch.Closed)
    (fence : Option Fence) (seen : List (String × Span)) (start : Nat) :
    (pairUp document none seen (Marker.linesOf fence start
      (layout.flatMap Stretch.pieces ++ rest))).fails = true := by
  induction layout generalizing fence seen start with
  | nil => exact hrest fence seen start
  | cons stretch stretches ih =>
    obtain ⟨hmarked, -, hproper⟩ := hproper
    rw [List.forall_mem_cons] at hclosed
    cases stretch with
    | plain piece =>
      have hagree := agree_cons document none seen
        (fun marker hmarker => ⟨hmarked.2 marker hmarker, by simp⟩) fence start
        (stretches.flatMap Stretch.pieces ++ rest)
      exact hagree.2.trans (ih hproper hclosed.2 _ _ _)
    | region name opener content closer =>
      obtain ⟨line, rfl⟩ := Option.isSome_iff_exists.mp hclosed.1.1
      simp only [List.flatMap_cons, Stretch.pieces, List.cons_append, List.append_assoc]
      by_cases hseen : seen.lookup name = none
      · obtain ⟨fence', line', -, -, -, hfails⟩ := pairUp_region document hmarked fence seen start
          ((some line).toList ++ (stretches.flatMap Stretch.pieces ++ rest)) hseen
        rw [hfails, Option.toList_some, List.singleton_append,
          Marker.linesOf_cons_some (hmarked.closer_piece line rfl).2, pairUp_ends _ rfl]
        exact ih hproper hclosed.2 _ _ _
      · rw [Marker.linesOf_cons_some hmarked.opener_marker]
        exact pairUp_begins_again hseen

theorem fails_begins_inside {document : Text} {name other : String} {opener content marker : Text}
    (hmarked : Stretch.MarkedRegion name opener content none)
    (hmarker : Marker.ofPiece? marker = some ⟨.begins, other⟩) (rest : List Text)
    (fence : Option Fence) (seen : List (String × Span)) (start : Nat) :
    (pairUp document none seen (Marker.linesOf fence start
      (opener :: (pieces content ++ marker :: rest)))).fails = true := by
  by_cases hseen : seen.lookup name = none
  · obtain ⟨fence', line, -, -, -, hfails⟩ :=
      pairUp_region document hmarked fence seen start (marker :: rest) hseen
    rw [hfails, Marker.linesOf_cons_some hmarker]
    exact pairUp_begins_inside _
  · rw [Marker.linesOf_cons_some hmarked.opener_marker]
    exact pairUp_begins_again hseen

end Region

/-- A document is refused if a region begins in it behind one that is open. -/
theorem Layout.ofDocument_error {layout : Layout} (hproper : layout.Proper)
    (hclosed : ∀ stretch ∈ layout, stretch.Closed) {name other : String}
    {opener content marker : Text} (hmarked : Stretch.MarkedRegion name opener content none)
    (hwhole : Whole (opener ++ content)) (hpiece : IsPiece marker) (hmarkerWhole : Whole marker)
    (hmarker : Marker.ofPiece? marker = some ⟨.begins, other⟩) (rest : Text) :
    ∃ findings, Region.ofDocument (layout.text ++ (opener ++ content ++ (marker ++ rest))) =
      .error findings := by
  have hregion : pieces (opener ++ content) = opener :: pieces content := by
    simpa [Stretch.text, Stretch.pieces] using
      @Stretch.pieces_text (.region name opener content none) hmarked
  have hpieces : pieces (layout.text ++ (opener ++ content ++ (marker ++ rest))) =
      layout.flatMap Stretch.pieces ++ (opener :: (pieces content ++ marker :: pieces rest)) := by
    rw [pieces_append (whole_text_of_closed hclosed), pieces_text hproper, pieces_append hwhole,
      hregion, pieces_cons_of_whole hpiece hmarkerWhole]
    rfl
  have hfails := Region.fails_layout_append
    (@Region.fails_begins_inside (layout.text ++ (opener ++ content ++ (marker ++ rest))) _ _ _ _ _
      hmarked hmarker (pieces rest)) hproper hclosed none [] 0
  rw [← hpieces, ← Region.markerLines_eq] at hfails
  rw [Region.ofDocument]
  exact ⟨_, if_pos hfails⟩

theorem Region.ofDocument_of_no_begins {document : Text}
    (h : ∀ line ∈ Line.scan document, ∀ marker ∈ Marker.parse? line.text,
      marker.side ≠ .begins) :
    ∃ found, Region.ofDocument document = .ok found ∧ found.records = [] := by
  have hends : ∀ pair ∈ markerLines document, pair.2.side = .ends := by
    intro pair hpair
    obtain ⟨line, hline, hread⟩ := List.mem_filterMap.mp hpair
    obtain ⟨⟨side, name⟩, hmarker, rfl⟩ := Option.map_eq_some_iff.mp hread
    cases side with
    | begins => exact absurd rfl (h line hline _ hmarker)
    | ends => rfl
  have hpairs : ∀ pairs : List (Line × Marker), (∀ pair ∈ pairs, pair.2.side = .ends) →
      (pairUp document none [] pairs).fails = false ∧
        (pairUp document none [] pairs).records = [] := by
    intro pairs hpairs
    induction pairs with
    | nil => exact ⟨rfl, rfl⟩
    | cons pair rest ih =>
      obtain ⟨line, side, name⟩ := pair
      rw [List.forall_mem_cons] at hpairs
      obtain rfl : side = .ends := hpairs.1
      rw [pairUp, Findings.fails_warn, Findings.records_warn, isError_strayEnd, Bool.false_or]
      exact ih hpairs.2
  obtain ⟨hfails, hrecords⟩ := hpairs _ hends
  refine ⟨_, ?_, hrecords⟩
  rw [Findings.fails] at hfails
  rw [Region.ofDocument, hfails]
  rfl

end DiagramSync
