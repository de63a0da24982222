/-!
Diagrams, their kinds and the verdicts passed on them.
-/

namespace DiagramSync

/-- The kinds of diagrams. A kind's name is also the name of its region. -/
inductive Kind where
  | journey
  | entityRelationship
  deriving Repr, DecidableEq

namespace Kind

def all : List Kind :=
  [.journey, .entityRelationship]

def name : Kind → String
  | .journey => "journey"
  | .entityRelationship => "entity-relationship"

def ofName? (name : String) : Option Kind :=
  if name = "journey" then some .journey
  else if name = "entity-relationship" ∨ name = "er" then some .entityRelationship
  else none

def unsupported : String :=
  "Unsupported diagram kind"

@[simp] theorem ofName?_name (kind : Kind) : ofName? kind.name = some kind := by
  cases kind <;> decide

theorem name_injective {first second : Kind} (same : first.name = second.name) :
    first = second := by
  have := congrArg ofName? same
  simpa using this

end Kind

structure Verdict where
  errors : List String
  warnings : List String
  deriving Repr, DecidableEq

namespace Verdict

def pass : Verdict :=
  ⟨[], []⟩

def ofWarnings (warnings : List String) : Verdict :=
  ⟨[], warnings⟩

def passed (verdict : Verdict) : Bool :=
  verdict.errors.isEmpty

def combine (first second : Verdict) : Verdict :=
  ⟨first.errors ++ second.errors, first.warnings ++ second.warnings⟩

@[simp] theorem warnings_combine (first second : Verdict) :
    (first.combine second).warnings = first.warnings ++ second.warnings := rfl

@[simp] theorem combine_pass (verdict : Verdict) : verdict.combine pass = verdict := by
  simp [combine, pass]

end Verdict

/-- How large a diagram may grow: beyond `soft` it is laid out in another way,
beyond `hard` a warning suggests to split it. -/
structure Limits where
  soft : Nat
  hard : Nat
  deriving Repr, DecidableEq

structure Diagram where
  kind : Kind
  markup : String
  nodeCount : Nat
  verdict : Verdict
  deriving Repr, DecidableEq

namespace Diagram

def judge (diagram : Diagram) (verdict : Verdict) : Diagram :=
  { diagram with verdict := diagram.verdict.combine verdict }

end Diagram
end DiagramSync
