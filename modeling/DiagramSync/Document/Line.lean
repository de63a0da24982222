import DiagramSync.Span
import DiagramSync.Text.Basic

/-!
The lines of a document with their place in it, and the fenced code blocks
that run across them.
-/

namespace DiagramSync

structure Fence where
  marker : Char
  length : Nat
  deriving Repr, DecidableEq

namespace Fence

def isMarker (c : Char) : Bool :=
  c == '\x60' || c == '~'

/-- The fence a line shows: a run of at least three marks, behind at most three
bytes of white space. Text may follow the run. -/
def ofLine? (line : Text) : Option Fence :=
  match Text.trimStart line with
  | [] => none
  | marker :: rest =>
    let length := ((marker :: rest).takeWhile (· == marker)).length
    if Text.size line - Text.size (marker :: rest) ≤ 3 ∧ isMarker marker ∧ 3 ≤ length then
      some ⟨marker, length⟩
    else
      none

def closes (opened fence : Fence) (line : Text) : Bool :=
  fence.marker == opened.marker && opened.length ≤ fence.length &&
    Text.size (Text.trim line) == fence.length

def next (opened : Option Fence) (line : Text) : Option Fence :=
  match opened, ofLine? line with
  | some outer, some fence => if outer.closes fence line then none else some outer
  | some outer, none => some outer
  | none, fence => fence

def holds (opened : Option Fence) (line : Text) : Bool :=
  opened.isSome || (ofLine? line).isSome

end Fence

structure Line where
  text : Text
  start : Nat
  /-- Offset behind the line break, or the document's size on a last line without one. -/
  stop : Nat
  fenced : Bool
  deriving Repr, DecidableEq

namespace Line

def span (line : Line) : Span :=
  ⟨line.start, line.start + Text.size line.text⟩

def isBlank (line : Line) : Bool :=
  Text.isBlank line.text

def beginsIndented (line : Line) : Bool :=
  match line.text with
  | c :: _ => Text.isSpace c
  | [] => false

/-- A piece of a document without its line break: a line feed, and one carriage
return before it or at the end. -/
def content (piece : Text) : Text :=
  Text.dropReturn (Text.dropLineFeed piece)

def ofPieces (opened : Option Fence) (start : Nat) : List Text → List Line
  | [] => []
  | piece :: rest =>
    let text := content piece
    let stop := start + Text.size piece
    ⟨text, start, stop, Fence.holds opened text⟩ :: ofPieces (Fence.next opened text) stop rest

def scan (document : Text) : List Line :=
  ofPieces none 0 (Text.pieces document)

end Line
end DiagramSync
