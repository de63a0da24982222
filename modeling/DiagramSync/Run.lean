import DiagramSync.Config.Source
import DiagramSync.Engine

/-!
Runs: a document is read from a file, processed and, if it is out of date,
written back or to another file. A run that fails leaves every file as it is.
-/

namespace DiagramSync

inductive RunFailure where
  | file (failure : FileFailure)
  | markers (diagnostics : List Diagnostic)
  | config (trouble : ConfigTrouble)
  | rejected (report : Report)
  deriving Repr, DecidableEq

namespace RunFailure

def ofProcess : ProcessFailure → RunFailure
  | .config flaw => .config (.flawed flaw)
  | .markers diagnostics => .markers diagnostics

def ofLoad : Config.LoadFailure → RunFailure
  | .file failure => .file failure
  | .config trouble => .config trouble

def message : RunFailure → String
  | .file failure => s!"I/O error: {failure.text}"
  | .markers diagnostics => Diagnostic.summary diagnostics
  | .config trouble => s!"Configuration error: {trouble.message}"
  | .rejected report =>
    let reason := report.abortReason.getD "diagram rejected"
    s!"strict validation failed: {reason}"

def report? : RunFailure → Option Report
  | .rejected report => some report
  | _ => none

end RunFailure

structure RunRequest where
  request : Request
  input : String
  dryRun : Bool
  /-- Where the document is written; over the input if nothing is said. -/
  output : Option String
  deriving Repr, DecidableEq

namespace RunRequest

def target (request : RunRequest) : String :=
  request.output.getD request.input

/-- Writes what a report says the document should be. A document that is up to
date is written only if an output is asked for. -/
def commit (request : RunRequest) (disk : Disk) (report : Report) :
    FileWork FileFailure Report := do
  if report.isOutOfDate || request.output.isSome then
    FileWork.write disk request.target (report.updated.getD report.source)
    return { report with stage := .committed, written := some request.target }
  else
    return { report with stage := .committed }

def finish (request : RunRequest) (disk : Disk) (report : Report) : FileWork RunFailure Report :=
  if request.dryRun then return report
  else (request.commit disk report).adapt RunFailure.file

end RunRequest

namespace Engine

def propose (engine : Engine) (tree : FileTree) (request : RunRequest) :
    Except RunFailure Report := do
  let source ← (tree.read request.input).mapError RunFailure.file
  let report ← (engine.process request.request source).mapError RunFailure.ofProcess
  if report.stage = .aborted then throw (.rejected report) else return report

def work (engine : Engine) (disk : Disk) (request : RunRequest) : FileWork RunFailure Report := do
  let tree ← get
  let report ← engine.propose tree request
  request.finish disk report

def run (engine : Engine) (tree : FileTree) (request : RunRequest) :
    Except RunFailure (Report × FileTree) :=
  (engine.work .free request).result tree

end Engine
end DiagramSync
