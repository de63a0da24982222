import DiagramSync.Check.Fault
import DiagramSync.Text.Basic

/-!
Brackets and quotes in diagram markup. Brackets nest across lines, quotes do not.
-/

namespace DiagramSync.Delimiters

def isOpener (c : Char) : Bool :=
  c == '(' || c == '[' || c == '\x7b'

def isCloser (c : Char) : Bool :=
  c == ')' || c == ']' || c == '\x7d'

def closerOf : Char → Char
  | '(' => ')'
  | '[' => ']'
  | _ => '\x7d'

abbrev Opener := Char × Nat

/-- Reads the characters of a line that are left. Returns the brackets that are
open behind it, innermost first, and whether a quote is, or the first fault. -/
def scanChars (line : Nat) (opened : List Opener) (quoted : Bool) :
    Text → Except Fault (List Opener × Bool)
  | [] => .ok (opened, quoted)
  | c :: cs =>
    if c == '"' then
      scanChars line opened (!quoted) cs
    else if quoted then
      scanChars line opened quoted cs
    else if isOpener c then
      scanChars line ((c, line) :: opened) quoted cs
    else if isCloser c then
      match opened with
      | (opener, openedAt) :: outer =>
        if closerOf opener == c then scanChars line outer quoted cs
        else .error (.wrongCloser line c opener openedAt)
      | [] => .error (.strayCloser line c)
    else
      scanChars line opened quoted cs

def scanLines (opened : List Opener) : List NumberedLine → List Fault
  | [] =>
    match opened.getLast? with
    | some (opener, openedAt) => [.openBracket openedAt opener]
    | none => []
  | (line, text) :: rest =>
    match scanChars line opened false text with
    | .error fault => [fault]
    | .ok (opened, quoted) =>
      if quoted then .openQuote line :: scanLines opened rest else scanLines opened rest

/-- A line of entity-relationship markup without the first occurrence of its
second word, if that is the line between two entities: its braces are no brackets. -/
def blankToken (text : Text) : Text :=
  match Text.words text with
  | _ :: token :: _ :: _ =>
    if Text.contains "--".toList token || Text.contains "..".toList token then
      Text.replaceFirst token [' '] text
    else
      text
  | _ => text

def view (kind : Kind) (text : Text) : Text :=
  match kind with
  | .journey => text
  | .entityRelationship => blankToken text

def check (kind : Kind) (lines : List NumberedLine) : List Fault :=
  scanLines [] (lines.map fun (line, text) => (line, view kind text))

end DiagramSync.Delimiters
