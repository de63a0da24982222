import DiagramSync.Run

/-!
Notices: what is shown to people at the end of a run, one for each finding in
the document and one for a failure that is not about a place in it.
-/

namespace DiagramSync

structure Notice where
  text : String
  code : Option String
  severity : Option Severity
  help : Option String
  hasSource : Bool
  labels : List Label
  deriving Repr, DecidableEq

namespace Notice

def ofDiagnostic (diagnostic : Diagnostic) : Notice where
  text := diagnostic.message
  code := diagnostic.code.map Code.text
  severity := some diagnostic.severity
  help := diagnostic.help
  hasSource := true
  labels := diagnostic.labels

def failureCode? : RunFailure → Option String
  | .file _ => some "specgram::io"
  | .markers _ => none
  | .config _ => some "specgram::config"
  | .rejected _ => some "specgram::strict"

def failureHelp? : RunFailure → Option String
  | .rejected _ =>
    some "the document was not modified; rerun without --strict to commit with warnings"
  | _ => none

def plain (failure : RunFailure) : Notice where
  text := failure.message
  code := failureCode? failure
  severity := none
  help := failureHelp? failure
  hasSource := false
  labels := []

def ofReport (report : Report) : List Notice :=
  report.diagnostics.map ofDiagnostic

/-- The notices about a failure. Ambiguous markers have one each; an aborted run
has those of its report first. -/
def ofFailure (failure : RunFailure) : List Notice :=
  match failure with
  | .markers diagnostics => diagnostics.map ofDiagnostic
  | .rejected report => ofReport report ++ [plain failure]
  | failure => [plain failure]

end Notice
end DiagramSync
