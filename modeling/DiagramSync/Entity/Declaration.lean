import DiagramSync.Entity.Phrase
import DiagramSync.Text.Alphanumeric

/-!
Declarations of attributes in the prose about an entity, such as `id: uuid PK`.
Inside a code span a declaration fills the span and may have any type. Elsewhere it
has to stand between word boundaries and have a known type.
-/

namespace DiagramSync

inductive KeyMark where
  | primary
  | foreign
  deriving Repr, DecidableEq

structure Declaration where
  name : Text
  type : Text
  mark : Option KeyMark
  deriving Repr, DecidableEq

namespace Declaration

def isNameChar (c : Char) : Bool :=
  c.isLower || c.isDigit || c == '_'

def isTypeChar (c : Char) : Bool :=
  Text.isAsciiAlphanum c || c == '_'

def name? (text : Text) : Option (Text × Text) :=
  match Text.span1? isNameChar text with
  | some (c :: name, rest) => if c.isDigit then none else some (c :: name, rest)
  | _ => none

def type? (text : Text) : Option (Text × Text) :=
  match Text.span1? isTypeChar text with
  | some (c :: type, rest) =>
    if c.isAlpha then
      match Text.stripPrefix? "[]".toList rest with
      | some rest => some (c :: type ++ "[]".toList, rest)
      | none => some (c :: type, rest)
    else
      none
  | _ => none

def markSpellings : List (String × KeyMark) :=
  [("(PK)", .primary), ("PK", .primary), ("(FK)", .foreign), ("FK", .foreign)]

def mark? (text : Text) : Option (KeyMark × Text) := do
  let text ← Text.skipSpaces1? text
  markSpellings.findSome? fun (spelling, mark) =>
    (Text.stripPrefix? spelling.toList text).map fun rest => (mark, rest)

def parse? (text : Text) : Option (Declaration × Text) := do
  let (name, rest) ← name? text
  let rest ← Text.stripPrefix? [':'] rest
  let (type, rest) ← type? (Text.skipSpaces rest)
  match mark? rest with
  | some (mark, rest) => return (⟨name, type, some mark⟩, rest)
  | none => return (⟨name, type, none⟩, rest)

def known? (text : Text) : Option (Declaration × Text) :=
  match parse? text with
  | some (declaration, rest) =>
    if Text.endsWord rest && Attribute.isKnownType declaration.type then
      some (declaration, rest)
    else
      none
  | none => none

/-- The declarations of a stretch of prose. `wordStart` says whether a word may begin
where the text does; `skip` counts the characters of the last declaration left. -/
def scanProse (wordStart : Bool) (skip : Nat) : Text → List Declaration
  | [] => []
  | c :: cs =>
    match skip with
    | skip + 1 => scanProse (!Text.continuesWord c) skip cs
    | 0 =>
      match if wordStart then known? (c :: cs) else none with
      | some (declaration, rest) =>
        declaration :: scanProse (!Text.continuesWord c) (cs.length - rest.length) cs
      | none => scanProse (!Text.continuesWord c) 0 cs

def inProse (text : Text) : List Declaration :=
  scanProse true 0 text

def inSpan? (text : Text) : Option Declaration :=
  match parse? (Text.trim text) with
  | some (declaration, []) => some declaration
  | _ => none

/-- The declarations in the parts between grave accents. A part is a code span if it is
at an odd place and an accent follows it, which the last part lacks. -/
def inParts (inside : Bool) : List Text → List Declaration
  | [] => []
  | [part] => inProse part
  | part :: rest =>
    (if inside then (inSpan? part).toList else inProse part) ++ inParts (!inside) rest

def all (body : Text) : List Declaration :=
  inParts false (body.splitOnP (· == '\x60'))

end Declaration
end DiagramSync
