import DiagramSync.Text.Basic

/-!
Marker lines: comments that open and close a managed region, such as

`<!-- specgram:begin section="journey" -->`
-/

namespace DiagramSync

inductive Side where
  | begins
  | ends
  deriving Repr, DecidableEq

structure Marker where
  side : Side
  name : String
  deriving Repr, DecidableEq

namespace Side

def keyword : Side → String
  | .begins => "begin"
  | .ends => "end"

end Side

namespace Marker

def isNameChar (c : Char) : Bool :=
  Text.isAsciiAlphanum c || c == '_' || c == '-'

/-- A section name is a non-empty word of ASCII letters, digits, `_` and `-`. -/
def isValidName (name : String) : Bool :=
  !name.toList.isEmpty && name.toList.all isNameChar

def render (marker : Marker) : String :=
  "<!-- specgram:" ++ marker.side.keyword ++ " section=\"" ++ marker.name ++ "\" -->"

def side? (text : Text) : Option (Side × Text) :=
  match Text.stripPrefix? "begin".toList text with
  | some rest => some (.begins, rest)
  | none => (Text.stripPrefix? "end".toList text).map fun rest => (.ends, rest)

def quotedName? (text : Text) : Option (Text × Text) := do
  let (name, rest) ← Text.span1? isNameChar (← Text.stripPrefix? ['"'] text)
  return (name, ← Text.stripPrefix? ['"'] rest)

def name? (text : Text) : Option (Text × Text) :=
  match quotedName? text with
  | some found => some found
  | none => Text.span1? isNameChar text

def parse? (line : Text) : Option Marker := do
  let rest ← Text.stripPrefix? "<!--".toList (Text.skipSpaces line)
  let rest ← Text.stripPrefix? "specgram:".toList (Text.skipSpaces rest)
  let (side, rest) ← side? rest
  let rest ← Text.stripPrefix? "section".toList (← Text.skipSpaces1? rest)
  let rest ← Text.stripPrefix? ['='] (Text.skipSpaces rest)
  let (name, rest) ← name? (Text.skipSpaces rest)
  let rest ← Text.stripPrefix? "-->".toList (Text.skipSpaces rest)
  if (Text.skipSpaces rest).isEmpty then
    return ⟨side, String.ofList name⟩
  else
    none

end Marker
end DiagramSync
