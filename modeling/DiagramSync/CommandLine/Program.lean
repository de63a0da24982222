import DiagramSync.CommandLine.Arguments
import DiagramSync.Notice
import DiagramSync.Validator.Consult

/-!
The program: from its arguments and the files it finds to what it prints, its
exit status and the files it leaves.
-/

namespace DiagramSync

/-- What a program has to do with besides the files. -/
structure Surroundings where
  parse : List String → Except Arguments.Stop Arguments
  settings? : String → Option Config
  /-- What validator commands answer that find the files of a tree. -/
  consult : FileTree → Consult
  disk : Disk

def Surroundings.standard : Surroundings where
  parse := Arguments.parse
  settings? := Config.ofToml?
  consult := ValidatorCommand.consult
  disk := .free

namespace Arguments

def runRequest (arguments : Arguments) : RunRequest where
  request := ⟨arguments.kind, arguments.strict⟩
  input := arguments.input
  dryRun := arguments.dryRun || arguments.check
  output := arguments.output

def work (arguments : Arguments) (around : Surroundings) (configHome : String) :
    FileWork RunFailure Report := do
  let tree ← get
  let config ← (Config.load around.settings? tree configHome arguments.config).mapError
    RunFailure.ofLoad
  (Engine.standard config (around.consult tree)).work around.disk arguments.runRequest

def run (arguments : Arguments) (tree : FileTree) (configHome : String) :
    Except RunFailure (Report × FileTree) :=
  (arguments.work .standard configHome).result tree

end Arguments

namespace Program

inductive LogLevel where
  | off
  | errors
  | warnings
  | all
  deriving Repr, DecidableEq

namespace LogLevel

def ofText? (text : String) : Option LogLevel :=
  match String.ofList (text.toList.map Char.toLower) with
  | "off" => some .off
  | "error" => some .errors
  | "warn" => some .warnings
  | "info" | "debug" | "trace" => some .all
  | _ => none

def shows (level : LogLevel) (notice : Notice) : Bool :=
  match level with
  | .off => false
  | .errors => notice.severity != some .warning
  | .warnings | .all => true

end LogLevel

structure Outcome where
  exitStatus : Nat
  out : String
  err : String
  tree : FileTree

def version : String :=
  "specgram-cli 0.1.0\n"

def usage : String :=
  "Usage: specgram [OPTIONS] <INPUT>\n"

def noticeLine (notice : Notice) : String :=
  let severity := (notice.severity.getD .error).text
  let code :=
    match notice.code with
    | some code => s!"[{code}]"
    | none => ""
  let help :=
    match notice.help with
    | some help => s!"  help: {help}\n"
    | none => ""
  s!"{severity}{code}: {notice.text}\n" ++ help

def noticeText (level : LogLevel) (notices : List Notice) : String :=
  String.join ((notices.filter level.shows).map noticeLine)

def outOfDate (input : String) : String :=
  s!"{input}: managed regions are out of date\n"

def perform (around : Surroundings) (arguments : Arguments) (tree : FileTree)
    (configHome : String) : Outcome :=
  let level? := LogLevel.ofText? arguments.logLevel
  let level := level?.getD .warnings
  let objection :=
    if level?.isSome then ""
    else s!"Invalid log level: {arguments.logLevel}. Using 'warn' instead.\n"
  match (arguments.work around configHome).on tree with
  | (.error failure, tree) =>
    { exitStatus := 1
      out := (failure.report?.map Report.summary).getD ""
      err := objection ++ noticeText level (Notice.ofFailure failure)
      tree }
  | (.ok report, tree) =>
    let stale := arguments.check && report.isOutOfDate
    { exitStatus := if stale then 1 else report.exitStatus
      out := report.summary
      err :=
        objection ++ noticeText level (Notice.ofReport report) ++
          (if stale then outOfDate arguments.input else "")
      tree }

def runIn (around : Surroundings) (arguments : List String) (tree : FileTree)
    (configHome : String) : Outcome :=
  match around.parse arguments with
  | .ok arguments => perform around arguments tree configHome
  | .error .version => ⟨0, version, "", tree⟩
  | .error .help => ⟨0, usage, "", tree⟩
  | .error .misuse => ⟨2, "", usage, tree⟩

def run (arguments : List String) (tree : FileTree) (configHome : String) : Outcome :=
  runIn .standard arguments tree configHome

end Program
end DiagramSync
