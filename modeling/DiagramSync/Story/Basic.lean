import DiagramSync.Span
import DiagramSync.Text.Basic

/-!
User stories and the acceptance scenarios that belong to them.
-/

namespace DiagramSync

inductive Priority where
  | p1
  | p2
  | p3
  | p4
  deriving Repr, DecidableEq

namespace Priority

def text : Priority → String
  | .p1 => "P1"
  | .p2 => "P2"
  | .p3 => "P3"
  | .p4 => "P4"

def ofText? (text : String) : Option Priority :=
  match (Text.trim text.toList).map Char.toUpper with
  | ['P', '1'] => some .p1
  | ['P', '2'] => some .p2
  | ['P', '3'] => some .p3
  | ['P', '4'] => some .p4
  | _ => none

def unsupported : String :=
  "Unsupported priority tag"

@[simp] theorem ofText?_text (priority : Priority) : ofText? priority.text = some priority := by
  cases priority <;> decide

end Priority

structure Scenario where
  precondition : String
  trigger : String
  outcome : String
  deriving Repr, DecidableEq

namespace Scenario

def ofClauses (precondition trigger outcome : Text) : Scenario where
  precondition := String.ofList (Text.trim precondition)
  trigger := String.ofList (Text.trim trigger)
  outcome := String.ofList (Text.trim outcome)

end Scenario

/-- A user story. Its number is the one written in the header, whatever the order. -/
structure Story where
  number : Nat
  title : String
  priority : Priority
  scenarios : List Scenario
  span : Span
  deriving Repr, DecidableEq

namespace Story

def hasScenarios (story : Story) : Bool :=
  !story.scenarios.isEmpty

def addScenario (story : Story) (scenario : Scenario) : Story :=
  { story with scenarios := story.scenarios ++ [scenario] }

end Story
end DiagramSync
