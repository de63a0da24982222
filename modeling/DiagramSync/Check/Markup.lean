import DiagramSync.Check.DataModel
import DiagramSync.Check.Delimiters
import DiagramSync.Check.Flowchart

/-!
The check of a diagram's markup that needs no other program: the declaration,
the delimiters and the statements. Markup without a fault may still be refused
by a renderer.
-/

namespace DiagramSync.Markup

def isSignificant (text : Text) : Bool :=
  let trimmed := Text.trim text
  !trimmed.isEmpty && (Text.stripPrefix? "%%".toList trimmed).isNone

def significantLines (markup : Text) : List NumberedLine :=
  ((Text.lines markup).zipIdx 1).filterMap fun (text, line) =>
    if isSignificant text then some (line, text) else none

def flowchartWords : List String :=
  ["flowchart", "graph"]

def directions : List String :=
  ["TD", "TB", "BT", "RL", "LR"]

def afterOneOf? (words : List String) (text : Text) : Option Text :=
  words.findSome? fun word => Text.stripPrefix? word.toList text

def skipDirection (text : Text) : Text :=
  match Text.skipSpaces1? text with
  | some rest => (afterOneOf? directions rest).getD text
  | none => text

def declared? (line : Text) : Option Kind :=
  match afterOneOf? flowchartWords line with
  | some rest => if (Text.skipSpaces (skipDirection rest)).isEmpty then some .journey else none
  | none =>
    match Text.stripPrefix? "erDiagram".toList line with
    | some rest => if (Text.skipSpaces rest).isEmpty then some .entityRelationship else none
    | none => none

def bodyFaults (kind : Kind) (body : List NumberedLine) : List Fault :=
  Delimiters.check kind body ++
    match kind with
    | .journey => FlowchartCheck.check body
    | .entityRelationship => DataModelCheck.check body

/-- The faults of markup that should be a diagram of the kind. Behind a wrong
declaration nothing is looked at. -/
def faults (kind : Kind) (markup : Text) : List Fault :=
  match significantLines markup with
  | [] => [.empty]
  | (line, first) :: body =>
    let declaration := Text.trim first
    match declared? declaration with
    | some found =>
      if found = kind then bodyFaults kind body
      else [.wrongDeclaration line kind found.keyword]
    | none => [.wrongDeclaration line kind (String.ofList declaration)]

def check (kind : Kind) (markup : String) : Verdict where
  errors := (faults kind markup.toList).map Fault.message
  warnings := []

end DiagramSync.Markup
