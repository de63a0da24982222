import DiagramSync.Command.Pattern
import DiagramSync.Command.Basic

/-!
The program `grep`, which chooses the lines that a pattern occurs in.
-/

namespace DiagramSync.Command

namespace LineSearch

structure Options where
  quiet : Bool := false
  silent : Bool := false
  invert : Bool := false
  ignoreCase : Bool := false
  count : Bool := false
  wholeLine : Bool := false
  fixed : Bool := false
  extended : Bool := false
  numbered : Bool := false
  patterns : List Text := []
  operands : List Text := []

namespace Options

def set? (options : Options) : Char → Option Options
  | 'q' => some { options with quiet := true }
  | 's' => some { options with silent := true }
  | 'v' => some { options with invert := true }
  | 'i' | 'y' => some { options with ignoreCase := true }
  | 'c' => some { options with count := true }
  | 'x' => some { options with wholeLine := true }
  | 'F' => some { options with fixed := true }
  | 'E' => some { options with extended := true }
  | 'G' => some { options with fixed := false, extended := false }
  | 'n' => some { options with numbered := true }
  | 'a' | 'h' => some options
  | _ => none

def letterOf? : String → Option Char
  | "--quiet" | "--silent" => some 'q'
  | "--no-messages" => some 's'
  | "--invert-match" => some 'v'
  | "--ignore-case" => some 'i'
  | "--count" => some 'c'
  | "--line-regexp" => some 'x'
  | "--fixed-strings" => some 'F'
  | "--extended-regexp" => some 'E'
  | "--basic-regexp" => some 'G'
  | "--line-number" => some 'n'
  | "--text" => some 'a'
  | "--no-filename" => some 'h'
  | _ => none

def addPattern (options : Options) (pattern : Text) : Options :=
  { options with patterns := options.patterns ++ [pattern] }

/-- Reads the letters of one argument. The letter `e` takes what follows it, or
the next argument, as a pattern. -/
def letters? (options : Options) : Text → List Text → Option (Options × List Text)
  | [], rest => some (options, rest)
  | ['e'], pattern :: rest => some (options.addPattern pattern, rest)
  | ['e'], [] => none
  | 'e' :: pattern, rest => some (options.addPattern pattern, rest)
  | letter :: letters, rest => do (← options.set? letter).letters? letters rest

def readWithin? : Nat → Options → List Text → Option Options
  | 0, _, _ => none
  | _, options, [] => some options
  | fuel + 1, options, argument :: rest =>
    match argument with
    | ['-', '-'] => some { options with operands := options.operands ++ rest }
    | '-' :: '-' :: _ => do
      let letter ← letterOf? (String.ofList argument)
      readWithin? fuel (← options.set? letter) rest
    | '-' :: letter :: letters => do
      let (options, rest) ← options.letters? (letter :: letters) rest
      readWithin? fuel options rest
    | operand => readWithin? fuel { options with operands := options.operands ++ [operand] } rest

def read? (args : List Text) : Option Options := do
  let options ← readWithin? (args.length + 1) {} args
  match options.patterns, options.operands with
  | [], [] => none
  | [], pattern :: files => return { options with patterns := [pattern], operands := files }
  | _, _ => return options

/-- Returns `true` if a line holds one of the patterns. A pattern of several
lines stands for several patterns. -/
def finds (options : Options) (line : Text) : Bool :=
  let fold (text : Text) : Text := if options.ignoreCase then text.map Char.toLower else text
  (options.patterns.flatMap fun pattern => pattern.splitOn '\n').any fun pattern =>
    let pattern := fold pattern
    let pattern :=
      if options.fixed then Pattern.exactly pattern else Pattern.ofLine options.extended pattern
    let pattern :=
      if options.wholeLine then
        Pattern.sequence [.one (· == .lineStart), pattern, .one (· == .lineEnd)]
      else pattern
    pattern.occursIn (fold line)

def select (options : Options) (bytes : Bytes) : List (Text × Nat) :=
  ((Text.pieces ((decode? bytes).getD [])).map Text.dropLineFeed).zipIdx 1 |>.filter
    fun (line, _) => options.finds line != options.invert

end Options

def report (options : Options) (several : Bool) (path : Text) (chosen : List (Text × Nat)) : Text :=
  let label := if several then path ++ [':'] else []
  if options.quiet then []
  else if options.count then label ++ (toString chosen.length).toList ++ ['\n']
  else
    chosen.flatMap fun (line, number) =>
      let position := if options.numbered then (toString number).toList ++ [':'] else []
      label ++ position ++ line ++ ['\n']

def search (options : Options) (several : Bool) : List Text → World → Bool × Bool × World
  | [], world => (false, false, world)
  | path :: rest, world =>
    match world.read? path with
    | (some bytes, world) =>
      let chosen := options.select bytes
      let world := world.write .out (encode (report options several path chosen))
      let (found, missing, world) := search options several rest world
      (found || !chosen.isEmpty, missing, world)
    | (none, world) =>
      let world :=
        if options.silent then world
        else world.complain ("grep: ".toList ++ path ++ ": No such file or directory".toList)
      let (found, _, world) := search options several rest world
      (found, true, world)

def usage : Text :=
  "Usage: grep [OPTION]... PATTERNS [FILE]...\nTry 'grep --help' for more information.".toList

end LineSearch

def grep : Program := fun args world =>
  match LineSearch.Options.read? args with
  | none => (2, world.complain LineSearch.usage)
  | some options =>
    let files := if options.operands.isEmpty then [['-']] else options.operands
    let (found, missing, world) := LineSearch.search options (1 < files.length) files world
    if missing && !(options.quiet && found) then (2, world)
    else (if found then 0 else 1, world)

end DiagramSync.Command
