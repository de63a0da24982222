import DiagramSync.Span

/-!
What a reader of the document has to be told: errors that stop a run and
warnings that do not, each with the places it is about.
-/

namespace DiagramSync

inductive Severity where
  | error
  | warning
  deriving Repr, DecidableEq

namespace Severity

def text : Severity → String
  | .error => "error"
  | .warning => "warning"

end Severity

inductive Code where
  | duplicateRegion
  | nestedRegion
  | strayEnd
  | unterminatedRegion
  /-- A heading begins like a user story and goes on otherwise. -/
  | malformedStoryHeader
  /-- A numbered line uses the words of a scenario in another shape. -/
  | malformedScenario
  | storyWithoutScenarios
  | storyOutOfSequence
  | unnamedEntity
  | duplicateEntity
  | multiplePrimaryKeys
  | unresolvedTarget
  | duplicateAttribute
  | conflictingCardinalities
  deriving Repr, DecidableEq

namespace Code

def text : Code → String
  | .duplicateRegion => "E001"
  | .nestedRegion => "E002"
  | .strayEnd => "E003"
  | .unterminatedRegion => "E004"
  | .malformedStoryHeader => "E100"
  | .malformedScenario => "E101"
  | .storyWithoutScenarios => "E102"
  | .storyOutOfSequence => "E103"
  | .unnamedEntity => "E200"
  | .duplicateEntity => "E201"
  | .multiplePrimaryKeys => "E202"
  | .unresolvedTarget => "E203"
  | .duplicateAttribute => "E204"
  | .conflictingCardinalities => "E205"

def all : List Code :=
  [.duplicateRegion, .nestedRegion, .strayEnd, .unterminatedRegion, .malformedStoryHeader,
   .malformedScenario, .storyWithoutScenarios, .storyOutOfSequence, .unnamedEntity,
   .duplicateEntity, .multiplePrimaryKeys, .unresolvedTarget, .duplicateAttribute,
   .conflictingCardinalities]

def ofText? (text : String) : Option Code :=
  all.find? fun code => code.text == text

@[simp] theorem ofText?_text (code : Code) : ofText? code.text = some code := by
  cases code <;> decide

end Code

/-- A place in the document and what it shows. Primary labels mark where a
problem is, secondary ones point at what it has to do with. -/
structure Label where
  span : Span
  message : String
  primary : Bool
  deriving Repr, DecidableEq

structure Diagnostic where
  severity : Severity
  code : Option Code
  message : String
  labels : List Label
  help : Option String
  deriving Repr, DecidableEq

namespace Diagnostic

def plain (severity : Severity) (message : String) : Diagnostic where
  severity
  code := none
  message
  labels := []
  help := none

def isError (diagnostic : Diagnostic) : Bool :=
  diagnostic.severity == .error

def isWarning (diagnostic : Diagnostic) : Bool :=
  diagnostic.severity == .warning

def text (diagnostic : Diagnostic) : String :=
  match diagnostic.code with
  | some code => s!"{diagnostic.severity.text}[{code.text}]: {diagnostic.message}"
  | none => s!"{diagnostic.severity.text}: {diagnostic.message}"

def summary (diagnostics : List Diagnostic) : String :=
  match diagnostics.filter isError with
  | [] => ""
  | [only] => only.text
  | first :: others => s!"{first.text} (+{others.length} more)"

end Diagnostic

structure Findings (α : Type) where
  records : List α
  diagnostics : List Diagnostic
  deriving Repr

namespace Findings

variable {α : Type}

def empty : Findings α :=
  ⟨[], []⟩

def cons (record : α) (rest : Findings α) : Findings α :=
  ⟨record :: rest.records, rest.diagnostics⟩

def warn (diagnostic : Diagnostic) (rest : Findings α) : Findings α :=
  ⟨rest.records, diagnostic :: rest.diagnostics⟩

def warn? (diagnostic : Option Diagnostic) (rest : Findings α) : Findings α :=
  match diagnostic with
  | some diagnostic => rest.warn diagnostic
  | none => rest

def append (first second : Findings α) : Findings α :=
  ⟨first.records ++ second.records, first.diagnostics ++ second.diagnostics⟩

end Findings
end DiagramSync
