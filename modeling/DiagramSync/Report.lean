import DiagramSync.Diagnostic
import DiagramSync.Diagram.Basic
import DiagramSync.Update

/-!
Reports: how far a run got, what happened to each diagram and what has to be
said about the document.
-/

namespace DiagramSync

inductive RunStage where
  | validated
  | committed
  | aborted
  deriving Repr, DecidableEq

namespace RunStage

def text : RunStage → String
  | .validated => "validated"
  | .committed => "committed"
  | .aborted => "aborted"

end RunStage

structure DiagramOutcome where
  kind : Kind
  nodeCount : Nat
  /-- Nothing if the run stopped before the update. -/
  region : Option RegionOutcome
  verdict : Verdict
  deriving Repr, DecidableEq

structure Omission where
  kind : Kind
  reason : String
  deriving Repr, DecidableEq

structure Report where
  stage : RunStage
  diagrams : List DiagramOutcome
  omissions : List Omission
  diagnostics : List Diagnostic
  source : String
  /-- The document as it should be, if the run got that far. -/
  updated : Option String
  written : Option String
  abortReason : Option String
  deriving Repr, DecidableEq

namespace Report

def diagram? (report : Report) (kind : Kind) : Option DiagramOutcome :=
  report.diagrams.find? fun diagram => diagram.kind == kind

def warningCount (report : Report) : Nat :=
  (report.diagnostics.filter Diagnostic.isWarning).length

def warns (report : Report) : Bool :=
  report.diagnostics.any Diagnostic.isWarning

def isOutOfDate (report : Report) : Bool :=
  match report.updated with
  | some updated => updated != report.source
  | none => false

def exitStatus (report : Report) : Nat :=
  match report.stage with
  | .aborted => 1
  | _ => 0

def diagramLine (diagram : DiagramOutcome) : String :=
  let region :=
    match diagram.region with
    | some outcome => s!", region {outcome.text}"
    | none => ""
  let count (messages : List String) (noun : String) : String :=
    if messages.isEmpty then "" else s!", {messages.length} {noun}"
  s!"  {diagram.kind.name}: {diagram.nodeCount} nodes" ++ region ++
    count diagram.verdict.errors "error(s)" ++ count diagram.verdict.warnings "warning(s)"

def summaryLines (report : Report) : List String :=
  [s!"run {report.stage.text}"] ++ report.diagrams.map diagramLine ++
    (report.omissions.map fun omission =>
      s!"  {omission.kind.name}: skipped ({omission.reason})") ++
    (match report.abortReason with
     | some reason => [s!"  aborted: {reason}"]
     | none => []) ++
    (match report.written with
     | some path => [s!"  wrote {path}"]
     | none => if report.stage = .committed then ["  document unchanged"] else []) ++
    (if report.warningCount = 0 then [] else [s!"  {report.warningCount} warning(s)"])

def summary (report : Report) : String :=
  String.join (report.summaryLines.map fun line => line ++ "\n")

end Report
end DiagramSync
