import DiagramSync.Check.Fault
import DiagramSync.Text.Basic

/-!
Statements of flowchart markup: groups, directives, and nodes joined by arrows.
-/

namespace DiagramSync.FlowchartCheck

def directives : List String :=
  ["direction", "classDef", "class", "style", "linkStyle", "click"]

/-- Arrows, in the order in which they are looked for. -/
def arrows : List String :=
  ["-.->", "-->", "---", "==>"]

/-- Stands for an arrow that was found. -/
def cut : Char := '\x00'

/-- A line with `x` for each character inside quotes. -/
def hideQuoted (quoted : Bool) : Text → Text
  | [] => []
  | c :: cs =>
    if c == '"' then c :: hideQuoted (!quoted) cs
    else (if quoted then 'x' else c) :: hideQuoted quoted cs

def isNodeIdChar (c : Char) : Bool :=
  Text.isAsciiAlphanum c || c == '_'

def opensLabel (c : Char) : Bool :=
  c == '[' || c == '(' || c == '\x7b' || c == '>'

def idPart (reference : Text) : Text :=
  let head := reference.takeWhile fun c => !opensLabel c
  match Text.splitOnce? ":::".toList head with
  | some (id, _) => Text.trim id
  | none => Text.trim head

def idFaults (line : Nat) (id : Text) : List Fault :=
  if id.isEmpty then [.missingNodeId line]
  else if id.all isNodeIdChar then []
  else [.badNodeId line (String.ofList id)]

def nodeFaults (line : Nat) (reference : Text) : List Fault :=
  match Text.trim reference with
  | '|' :: rest =>
    match Text.splitOnce? ['|'] rest with
    | some (_, after) => idFaults line (idPart (Text.trim after))
    | none => [.openEdgeLabel line]
  | reference => idFaults line (idPart reference)

def references (statement : Text) : List Text :=
  let marked := arrows.foldl
    (fun text arrow => Text.replaceAll arrow.toList [cut] text) (hideQuoted false statement)
  marked.splitOnP (· == cut)

def groupTitle? (statement : Text) : Option Text :=
  match Text.stripPrefix? "subgraph".toList statement with
  | some [] => some []
  | some (c :: rest) => if Text.isWhite c then some (c :: rest) else none
  | none => none

def isDirective (statement : Text) : Bool :=
  match Text.words statement with
  | word :: _ => directives.any fun directive => directive.toList == word
  | [] => false

inductive Statement where
  | groupEnd
  | groupBegin (title : Text)
  | directive
  | nodes (references : List Text)
  deriving Repr, DecidableEq

def Statement.read (text : Text) : Statement :=
  let statement := Text.trim text
  if statement = "end".toList then .groupEnd
  else
    match groupTitle? statement with
    | some title => .groupBegin title
    | none => if isDirective statement then .directive else .nodes (references statement)

def lineFaults (depth : Nat) : List NumberedLine → List Fault
  | [] => if depth = 0 then [] else [.openGroups depth]
  | (line, text) :: rest =>
    match Statement.read text with
    | .groupEnd =>
      match depth with
      | 0 => .strayEnd line :: lineFaults 0 rest
      | depth + 1 => lineFaults depth rest
    | .groupBegin title => nodeFaults line (hideQuoted false title) ++ lineFaults (depth + 1) rest
    | .directive => lineFaults depth rest
    | .nodes references => references.flatMap (nodeFaults line) ++ lineFaults depth rest

def check (lines : List NumberedLine) : List Fault :=
  lineFaults 0 lines

end DiagramSync.FlowchartCheck
