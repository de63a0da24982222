import DiagramSync.Command.Run
import DiagramSync.FileTree
import DiagramSync.Validator.Basic

/-!
Consulting a validator command: it is given the markup in a file or, if it does
not ask for the file, as its input, and may write to a second file.
-/

namespace DiagramSync

namespace ValidatorCommand

def inputMark : Text :=
  "\x7binput\x7d".toList

def outputMark : Text :=
  "\x7boutput\x7d".toList

def inputPath : Text :=
  "/tmp/specgram-3fVq8Z.mmd".toList

def outputPath : Text :=
  "/tmp/specgram-0Xk2Tb.svg".toList

def fill (argument : String) : Text :=
  Text.replaceAll outputMark outputPath (Text.replaceAll inputMark inputPath argument.toList)

def asksForFile (command : ValidatorCommand) : Bool :=
  command.args.any fun argument => Text.contains inputMark argument.toList

def filesOf (tree : FileTree) : List (Text × Command.Bytes) :=
  tree.files.flatMap fun (place, content) =>
    let bytes := content.data.toList
    let joined (names : List String) : Text := ("/".intercalate names).toList
    let paths :=
      ('/' :: joined place) ::
        if tree.here.isPrefixOf place then
          let path := joined (place.drop tree.here.length)
          [path, "./".toList ++ path]
        else []
    paths.map fun path => (path, bytes)

def world (command : ValidatorCommand) (tree : FileTree) (markup : String) : Command.World where
  files :=
    [(inputPath, Command.encode markup.toList), (outputPath, [])] ++ filesOf tree
  input := if command.asksForFile then [] else Command.encode markup.toList
  output := []
  elapsedMs := 0

def isNoProgram (tree : FileTree) (name : String) : Bool :=
  let text := name.toList
  !text.isEmpty &&
    ((text.splitOn '/').all (fun part => ["", ".", ".."].any fun other => other.toList == part) ||
      ["bin", "dev", "dev/null", "etc", "etc/passwd", "home", "tmp", "usr", "usr/bin",
        "var"].any (fun path =>
          text == ("/" ++ path).toList || text == ("/" ++ path ++ "/").toList) ||
      (text.contains '/' && tree.holds name))

def lookInterval : Nat :=
  20

/-- When a command is given up: at the first look at or after the limit. -/
def givenUpAt (timeoutMs : Nat) : Nat :=
  (timeoutMs + lookInterval - 1) / lookInterval * lookInterval

/-- What a command says, without white space around it. Only UTF-8 can be read. -/
def complaint (output : Command.Output) : String :=
  String.ofList (Text.trim ((Command.decode? (output.on .err)).getD []))

/-- Gives markup to a command, which is started in the working folder of a tree. It
reads the files there, and the tree stays as it is. -/
def consult (tree : FileTree) : Consult := fun command markup =>
  match
    Command.call? command.program.toList (command.args.map fill) (command.world tree markup)
  with
  | none => .notStarted (if isNoProgram tree command.program then .notPermitted else .notFound)
  | some (status, world) =>
    if givenUpAt command.timeoutMs ≤ world.elapsedMs then .timedOut
    else if status = 0 then .accepted
    else .refused s!"exit status: {status}" (complaint world.output)

end ValidatorCommand
end DiagramSync
