import DiagramSync.Story.Basic
import DiagramSync.Text.Alphanumeric

/-!
Scenario lines: numbered list items such as

`1. **Given** a cart, **When** the user pays, **Then** an order exists`

Strong emphasis is left out before a line is read, and the commas are optional.
-/

namespace DiagramSync

inductive ScenarioItem where
  | scenario (scenario : Scenario)
  /-- A numbered item with a clause word in another shape. -/
  | malformed
  | unrelated
  deriving Repr, DecidableEq

namespace ScenarioItem

def dropStrong (text : Text) : Text :=
  Text.replaceAll "__".toList [] (Text.replaceAll "**".toList [] text)

def itemBody? (text : Text) : Option Text := do
  let (_, rest) ← Text.span1? Char.isDigit (Text.skipSpaces text)
  match rest with
  | c :: rest => if c == '.' || c == ')' then Text.skipSpaces1? rest else none
  | [] => none

/-- Cuts the text at the first occurrence of `word`, which may not be its beginning. -/
def upTo? (word text : Text) : Option (Text × Text) :=
  match Text.splitOnce? word text with
  | some ([], _) => none
  | found => found

def clauses? (body : Text) : Option (Text × Text × Text) := do
  let rest ← Text.skipSpaces1? (← Text.stripPrefix? "Given".toList body)
  let (precondition, rest) ← upTo? " When ".toList rest
  let (trigger, outcome) ← upTo? " Then ".toList rest
  return (precondition, trigger, outcome)

def bareClause (clause : Text) : Text :=
  Text.trim (Text.trimEndWhere (· == ',') (Text.trim clause))

def mentionsClauseWord (body : Text) : Bool :=
  (body.splitOnP fun c => !Text.isAlphanumeric c).any fun word =>
    ["given", "when", "then"].any fun clauseWord => Text.equalsNoCase word clauseWord.toList

def ofBody (body : Text) : ScenarioItem :=
  match clauses? (Text.trimEnd body) with
  | some (precondition, trigger, outcome) =>
    let precondition := bareClause precondition
    let trigger := bareClause trigger
    let outcome := bareClause outcome
    if precondition.isEmpty || trigger.isEmpty || outcome.isEmpty then
      .malformed
    else
      .scenario (.ofClauses precondition trigger outcome)
  | none => if mentionsClauseWord body then .malformed else .unrelated

def read (line : Text) : ScenarioItem :=
  match itemBody? (dropStrong line) with
  | some body => ofBody body
  | none => .unrelated

end ScenarioItem
end DiagramSync
