import DiagramSync.Check.Fault
import DiagramSync.Entity.Basic
import DiagramSync.Text.Basic

/-!
Statements of entity-relationship markup: entities, their attributes between
braces, and relationships.
-/

namespace DiagramSync.DataModelCheck

def keyMarks : List String :=
  ["PK", "FK", "UK"]

def isWord (inner : Char → Bool) : Text → Bool
  | [] => false
  | c :: cs => (c.isAlpha || c == '_') && cs.all inner

def isName (name : Text) : Bool :=
  isWord (fun c => Text.isAsciiAlphanum c || c == '_' || c == '-') name

def isType (type : Text) : Bool :=
  isWord (fun c => Text.isAsciiAlphanum c || c == '_' || c == '-' || c == '[' || c == ']') type

def nameFaults (line : Nat) (name : Text) : List Fault :=
  if isName name then [] else [.badEntityName line (String.ofList name)]

/-- The part of an attribute's line in front of its comment. -/
def declaration (text : Text) : Text :=
  text.takeWhile fun c => c != '"'

def keyFaults (line : Nat) (keys : List Text) : List Fault :=
  let marks := (keys.flatten.splitOnP (· == ',')).filter fun mark => !mark.isEmpty
  marks.flatMap fun mark =>
    if keyMarks.any fun known => known.toList == mark then []
    else [.unknownKeyMark line (String.ofList mark)]

def attributeFaults (line : Nat) (text : Text) : List Fault :=
  match Text.words (declaration text) with
  | type :: name :: keys =>
    (if isType type then [] else [.badAttributeType line (String.ofList type)]) ++
      (if isName name then [] else [.badAttributeName line (String.ofList name)]) ++
      keyFaults line keys
  | _ => [.incompleteAttribute line]

def hasLabel : List Text → Bool
  | (':' :: label) :: rest => !label.isEmpty || !rest.isEmpty
  | _ => false

def statementFaults (line : Nat) (statement : Text) : List Fault :=
  match Text.words statement with
  | [name] => nameFaults line name
  | source :: token :: target :: label =>
    nameFaults line source ++ nameFaults line target ++
      (if (Cardinality.ofToken? (String.ofList token)).isSome then []
       else [.unknownToken line (String.ofList token)]) ++
      (if hasLabel label then [] else [.missingLabel line])
  | _ => [.unknownStatement line (String.ofList statement)]

/-- The faults in the lines that are left. `inBlock` is set between the braces
of an entity; a line with nothing but a closing brace ends them. -/
def lineFaults (inBlock : Bool) : List NumberedLine → List Fault
  | [] => []
  | (line, text) :: rest =>
    let statement := Text.trim text
    if inBlock then
      if statement = ['\x7d'] then lineFaults false rest
      else attributeFaults line statement ++ lineFaults true rest
    else
      match Text.stripSuffix? ['\x7b'] statement with
      | some name => nameFaults line (Text.trim name) ++ lineFaults true rest
      | none => statementFaults line statement ++ lineFaults false rest

def check (lines : List NumberedLine) : List Fault :=
  lineFaults false lines

end DiagramSync.DataModelCheck
