import DiagramSync.Document.Line

/-!
Headings. Lines inside fenced code blocks are none.
-/

namespace DiagramSync

structure Heading where
  level : Nat
  title : Text
  deriving Repr, DecidableEq

namespace Heading

/-- A title without the run of number signs that may close it. The run counts
only if a space or a tab sets it off, or if nothing else is left. -/
def dropClosing (title : Text) : Text :=
  let bare := Text.trimEndWhere (· == '#') title
  if bare.length = title.length then
    title
  else
    match bare.getLast? with
    | none => []
    | some c => if Text.isSpace c then Text.trimEnd bare else title

def ofText? (text : Text) : Option Heading :=
  let body := text.drop (min 3 (text.takeWhile (· == ' ')).length)
  let level := min 6 (body.takeWhile (· == '#')).length
  if level = 0 then
    none
  else
    match body.drop level with
    | [] => some ⟨level, []⟩
    | c :: rest =>
      if Text.isSpace c then some ⟨level, dropClosing (Text.trim rest)⟩ else none

def ofLine? (line : Line) : Option Heading :=
  if line.fenced then none else ofText? line.text

end Heading

structure PlacedHeading where
  heading : Heading
  line : Span
  deriving Repr, DecidableEq

def Heading.all (document : Text) : List PlacedHeading :=
  (Line.scan document).filterMap fun line =>
    (Heading.ofLine? line).map fun heading => ⟨heading, ⟨line.start, line.stop⟩⟩

end DiagramSync
