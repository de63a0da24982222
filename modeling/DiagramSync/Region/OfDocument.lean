import DiagramSync.Diagnostic
import DiagramSync.Document.Line
import DiagramSync.Region.Marker

/-!
The managed regions of a document. Marker lines count everywhere, also inside
fenced code blocks, so a fence left open in a region never hides the region's end.
-/

namespace DiagramSync

structure Region where
  name : String
  /-- From the begin marker's line to the end of the end marker's line. -/
  range : Span
  contentRange : Span
  content : String
  /-- Not set if the region has no end marker and runs to the end of the document. -/
  terminated : Bool
  deriving Repr, DecidableEq

namespace Region

def contains (region : Region) (offset : Nat) : Bool :=
  region.range.contains offset

structure Opening where
  name : String
  line : Line
  deriving Repr

namespace Opening

def close (opening : Opening) (document : Text) (contentStop stop : Nat) (terminated : Bool) :
    Region where
  name := opening.name
  range := ⟨opening.line.start, stop⟩
  contentRange := ⟨opening.line.stop, contentStop⟩
  content := String.ofList (Text.slice opening.line.stop contentStop document)
  terminated

end Opening

/-! ### Findings -/

def nested (name : String) (line : Line) (outer : Opening) : Diagnostic where
  severity := .error
  code := some .nestedRegion
  message := s!"region `{name}` begins inside region `{outer.name}`"
  labels :=
    [⟨line.span, "nested begin marker", true⟩,
     ⟨outer.line.span, "enclosing region opened here", false⟩]
  help := some "close the enclosing region before opening another one"

def duplicate (name : String) (line : Line) (first : Span) : Diagnostic where
  severity := .error
  code := some .duplicateRegion
  message := s!"region `{name}` is defined multiple times"
  labels := [⟨line.span, "duplicate begin marker", true⟩, ⟨first, "first defined here", false⟩]
  help := some "remove one of the regions so the rewrite target is unambiguous"

def strayEnd (name : String) (line : Line) : Diagnostic where
  severity := .warning
  code := some .strayEnd
  message := s!"end marker for `{name}` has no open region"
  labels := [⟨line.span, "stray end marker", true⟩]
  help := some "the marker is ignored"

def unterminated (opening : Opening) : Diagnostic where
  severity := .warning
  code := some .unterminatedRegion
  message := s!"region `{opening.name}` has no end marker"
  labels := [⟨opening.line.span, "region opened here", true⟩]
  help := some "the region is treated as running to the end of the document"

/-! ### Location -/

def markerLines (document : Text) : List (Line × Marker) :=
  (Line.scan document).filterMap fun line =>
    (Marker.parse? line.text).map fun marker => (line, marker)

/-- Pairs up the markers that are left, given the region that is open and the
names opened so far, each with the place of its first begin marker. -/
def pairUp (document : Text) (opened : Option Opening) (seen : List (String × Span)) :
    List (Line × Marker) → Findings Region
  | [] =>
    match opened with
    | some opening =>
      let size := Text.size document
      ⟨[opening.close document size size false], [unterminated opening]⟩
    | none => .empty
  | (line, ⟨.begins, name⟩) :: rest =>
    match opened with
    | some outer => (pairUp document opened seen rest).warn (nested name line outer)
    | none =>
      let opening : Opening := ⟨name, line⟩
      match seen.lookup name with
      | some first =>
        (pairUp document (some opening) seen rest).warn (duplicate name line first)
      | none => pairUp document (some opening) (seen ++ [(name, line.span)]) rest
  | (line, ⟨.ends, name⟩) :: rest =>
    match opened with
    | some opening =>
      if opening.name = name then
        (pairUp document none seen rest).cons
          (opening.close document line.start line.stop true)
      else
        (pairUp document opened seen rest).warn (strayEnd name line)
    | none => (pairUp document none seen rest).warn (strayEnd name line)

/-- The regions of a document with the warnings about its markers, or, if the
markers are ambiguous, all findings about them. -/
def ofDocument (document : Text) : Except (List Diagnostic) (Findings Region) :=
  let found := pairUp document none [] (markerLines document)
  if found.diagnostics.any Diagnostic.isError then
    .error found.diagnostics
  else
    .ok found

def named? (regions : List Region) (name : String) : Option Region :=
  regions.find? fun region => region.name == name

end Region
end DiagramSync
