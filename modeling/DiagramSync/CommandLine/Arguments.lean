import DiagramSync.Diagram.Basic
import DiagramSync.Text.Basic

/-!
The arguments of the program.

An option has a long name behind two dashes, and may have a letter behind one.
Its value is the next argument, or follows an equals sign; behind a letter it may
follow at once. No option is given twice. Behind two dashes alone, no argument
is an option.
-/

namespace DiagramSync

structure Arguments where
  input : String
  kind : Option Kind
  strict : Bool
  dryRun : Bool
  check : Bool
  output : Option String
  config : Option String
  logLevel : String
  deriving Repr, DecidableEq

namespace Arguments

/-! ### Options -/

inductive ValueOption where
  | kind
  | output
  | config
  | logLevel
  deriving Repr, DecidableEq

inductive Flag where
  | strict
  | dryRun
  | check
  | help
  | version
  deriving Repr, DecidableEq

inductive AnyOption where
  | valued (option : ValueOption)
  | flag (flag : Flag)
  deriving Repr, DecidableEq

def ofName? : String → Option AnyOption
  | "kind" => some (.valued .kind)
  | "output" => some (.valued .output)
  | "config" => some (.valued .config)
  | "log-level" => some (.valued .logLevel)
  | "strict" => some (.flag .strict)
  | "dry-run" => some (.flag .dryRun)
  | "check" => some (.flag .check)
  | "help" => some (.flag .help)
  | "version" => some (.flag .version)
  | _ => none

def ofLetter? : Char → Option AnyOption
  | 'k' => some (.valued .kind)
  | 'o' => some (.valued .output)
  | 'c' => some (.valued .config)
  | 'h' => some (.flag .help)
  | 'V' => some (.flag .version)
  | _ => none

/-! ### Reading -/

inductive Stop where
  | help
  | version
  | misuse
  deriving Repr, DecidableEq

structure Reading where
  input : Option String
  kind : Option Kind
  output : Option String
  config : Option String
  logLevel : Option String
  flags : List Flag
  pending : Option ValueOption
  plain : Bool
  deriving Repr, DecidableEq

namespace Reading

def start : Reading :=
  ⟨none, none, none, none, none, [], none, false⟩

def fill {α : Type} (field : Option α) (value : α) : Except Stop (Option α) :=
  match field with
  | none => .ok (some value)
  | some _ => .error .misuse

def setValue (reading : Reading) (option : ValueOption) (value : String) :
    Except Stop Reading := do
  match option with
  | .kind =>
    match Kind.ofName? value with
    | some kind => return { reading with kind := ← fill reading.kind kind }
    | none => throw .misuse
  | .output => return { reading with output := ← fill reading.output value }
  | .config => return { reading with config := ← fill reading.config value }
  | .logLevel => return { reading with logLevel := ← fill reading.logLevel value }

/-- Help and the version are asked for by the first such flag. -/
def setFlag (reading : Reading) (flag : Flag) : Except Stop Reading :=
  match flag with
  | .help => .error .help
  | .version => .error .version
  | flag =>
    if reading.flags.contains flag then .error .misuse
    else .ok { reading with flags := reading.flags ++ [flag] }

def setInput (reading : Reading) (value : String) : Except Stop Reading := do
  return { reading with input := ← fill reading.input value }

def long (reading : Reading) (text : Text) : Except Stop Reading :=
  let name := String.ofList (text.takeWhile (· != '='))
  let value :=
    match text.dropWhile (· != '=') with
    | _ :: value => some (String.ofList value)
    | [] => none
  match ofName? name, value with
  | some (.valued option), some value => reading.setValue option value
  | some (.valued option), none => .ok { reading with pending := some option }
  | some (.flag flag), none => reading.setFlag flag
  | some (.flag _), some _ | none, _ => .error .misuse

/-- Options by their letters. The first one that has a value takes the rest. -/
def letters (reading : Reading) : Text → Except Stop Reading
  | [] => .ok reading
  | letter :: rest =>
    match ofLetter? letter with
    | some (.flag flag) => do (← reading.setFlag flag).letters rest
    | some (.valued option) =>
      match rest with
      | [] => .ok { reading with pending := some option }
      | '=' :: value => reading.setValue option (String.ofList value)
      | value => reading.setValue option (String.ofList value)
    | none => .error .misuse

/-- Reads one argument. The value of an option cannot look like an option. -/
def argument (reading : Reading) (argument : String) : Except Stop Reading :=
  if reading.plain then reading.setInput argument
  else
    match reading.pending, argument.toList with
    | some _, '-' :: _ :: _ => .error .misuse
    | some option, _ => { reading with pending := none }.setValue option argument
    | none, ['-', '-'] => .ok { reading with plain := true }
    | none, '-' :: '-' :: text => reading.long text
    | none, '-' :: c :: rest => reading.letters (c :: rest)
    | none, _ => reading.setInput argument

def finish (reading : Reading) : Except Stop Arguments :=
  match reading.input, reading.pending with
  | some input, none =>
    .ok
      { input
        kind := reading.kind
        strict := reading.flags.contains .strict
        dryRun := reading.flags.contains .dryRun
        check := reading.flags.contains .check
        output := reading.output
        config := reading.config
        logLevel := reading.logLevel.getD "info" }
  | _, _ => .error .misuse

end Reading

def parse (arguments : List String) : Except Stop Arguments := do
  (← arguments.foldlM Reading.argument .start).finish

end Arguments
end DiagramSync
