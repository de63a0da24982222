import DiagramSync.Check.Markup
import DiagramSync.Config.Basic
import DiagramSync.Text.Duration

/-!
Validation of diagrams in two tiers: the check of the markup, and in strict
mode, once that has passed, a command that is given the markup.
-/

namespace DiagramSync

/-- A validator command. Its arguments may hold marks for the paths of two files,
see `ValidatorCommand.fill`. -/
structure ValidatorCommand where
  program : String
  args : List String
  timeoutMs : Nat
  deriving Repr, DecidableEq

inductive SystemFailure where
  | notFound
  | notPermitted
  | other (text : String)
  deriving Repr, DecidableEq

namespace SystemFailure

def text : SystemFailure → String
  | .notFound => "No such file or directory (os error 2)"
  | .notPermitted => "Permission denied (os error 13)"
  | .other text => text

end SystemFailure

inductive Consultation where
  | accepted
  /-- The command does not end with status zero. It ends as `ending` says, with a status or by a
  signal, and `complaint` is what it says itself. -/
  | refused (ending complaint : String)
  /-- The files that the command works on cannot be made. -/
  | notPrepared (failure : SystemFailure)
  | notStarted (failure : SystemFailure)
  | timedOut
  /-- Nobody can tell whether the command has ended. -/
  | notAwaited (failure : SystemFailure)
  deriving Repr, DecidableEq

abbrev Consult := ValidatorCommand → String → Consultation

namespace Validation

def externalTrouble : String :=
  "external validation unavailable or failed"

def noCommand : String :=
  s!"{externalTrouble}: no validator command configured"

def command? (validation : Validation) : Option ValidatorCommand :=
  validation.command.map fun program => ⟨program, validation.args, validation.timeoutMs⟩

def verdictOf (command : ValidatorCommand) : Consultation → Verdict
  | .accepted => .pass
  | .refused ending complaint =>
    let said := if complaint.isEmpty then "" else s!": {complaint}"
    ⟨[s!"{externalTrouble}: `{command.program}` exited with {ending}{said}"], []⟩
  | .notPrepared failure =>
    .ofWarnings [s!"{externalTrouble}: failed to prepare temporary files: {failure.text}"]
  | .notStarted failure =>
    .ofWarnings [s!"{externalTrouble}: failed to start `{command.program}`: {failure.text}"]
  | .timedOut =>
    let limit := Duration.text command.timeoutMs
    .ofWarnings [s!"{externalTrouble}: `{command.program}` did not finish within {limit}"]
  | .notAwaited failure =>
    .ofWarnings [s!"{externalTrouble}: failed waiting for `{command.program}`: {failure.text}"]

def reachesCommand (strict : Bool) (diagram : Diagram) : Bool :=
  strict && (Markup.check diagram.kind diagram.markup).passed

def consulted? (validation : Validation) (strict : Bool) (diagram : Diagram) :
    Option ValidatorCommand :=
  if reachesCommand strict diagram then validation.command? else none

def externalVerdict (validation : Validation) (consult : Consult) (strict : Bool)
    (diagram : Diagram) : Verdict :=
  match validation.consulted? strict diagram with
  | some command => verdictOf command (consult command diagram.markup)
  | none => if reachesCommand strict diagram then .ofWarnings [noCommand] else .pass

/-- The verdict of the tiers that are reached. The diagram's own verdict is not
part of it. -/
def validate (validation : Validation) (consult : Consult) (strict : Bool) (diagram : Diagram) :
    Verdict :=
  (Markup.check diagram.kind diagram.markup).combine
    (validation.externalVerdict consult strict diagram)

end Validation
end DiagramSync
