import DiagramSync.Command.Pattern
import DiagramSync.Command.Programs
import DiagramSync.Command.Script

/-!
Running scripts.
-/

namespace DiagramSync.Command

/-! ### Words -/

/-- A character of an expanded word, or what stands between its characters. -/
inductive Glyph where
  | char (c : Pattern.NameChar)
  | gap
  | mark

namespace Glyph

def ofText (quoted : Bool) (text : Text) : List Glyph :=
  text.map fun c => .char ⟨c, quoted⟩

/-- A value that is put into a word; only quotes keep its white space. -/
def ofValue (quoted : Bool) (value : Text) : List Glyph :=
  if quoted then ofText true value
  else value.map fun c => if Text.isSpace c || c == '\n' then .gap else .char ⟨c, false⟩

def fields : Option (List Pattern.NameChar) → List Glyph → List (List Pattern.NameChar)
  | none, [] => []
  | some field, [] => [field]
  | none, .gap :: rest => fields none rest
  | some field, .gap :: rest => field :: fields none rest
  | field, .mark :: rest => fields (some (field.getD [])) rest
  | field, .char c :: rest => fields (some (field.getD [] ++ [c])) rest

def chars (glyphs : List Glyph) : List Pattern.NameChar :=
  glyphs.map fun glyph =>
    match glyph with
    | .char c => c
    | _ => ⟨' ', true⟩

end Glyph

def textOf (word : List Pattern.NameChar) : Text :=
  word.map Pattern.NameChar.char

/-! ### The state of a script -/

structure Shell where
  world : World
  name : Text
  lineFeeds : Nat
  line : Nat
  args : List Text
  bindings : List (Text × Text)
  status : Nat
  /-- Set once the script has ended; nothing runs any more. -/
  ended : Bool

namespace Shell

def joinedArgs (shell : Shell) : Text :=
  [' '].intercalate shell.args

def value (shell : Shell) (name : Text) : Text :=
  match name with
  | ['?'] => (toString shell.status).toList
  | ['#'] => (toString shell.args.length).toList
  | ['@'] | ['*'] => shell.joinedArgs
  | ['$'] => ['1']
  | name =>
    if name.all Char.isDigit then
      match (Print.leadingInt name).toNat with
      | 0 => shell.name
      | n + 1 => shell.args.getD n []
    else (shell.bindings.lookup name).getD []

/-- A parameter in a word. All arguments in quotes are one word each. -/
def glyphs (shell : Shell) (name : Text) (quoted : Bool) : List Glyph :=
  if quoted && name == ['@'] then
    [Glyph.gap].intercalate (shell.args.map fun arg => .mark :: Glyph.ofText true arg)
  else Glyph.ofValue quoted (shell.value name)

def assign (name value : Text) (shell : Shell) : Shell :=
  { shell with bindings := (name, value) :: shell.bindings }

def isSet (shell : Shell) (name : Text) : Bool :=
  if name.all Char.isDigit then (Print.leadingInt name).toNat ≤ shell.args.length
  else if name == ['@'] || name == ['*'] then !shell.args.isEmpty
  else !name.all Script.isNameChar || (shell.bindings.lookup name).isSome

def complain (message : Text) (shell : Shell) : Shell :=
  let place := shell.name ++ ": ".toList ++ (toString shell.line).toList ++ ": ".toList
  { shell with world := shell.world.complain (place ++ message) }

def stall (shell : Shell) : Shell :=
  { shell with world := shell.world.wait World.forever, ended := true }

end Shell

/-! ### Operations on values -/

def splits (value : Text) : List (Text × Text) :=
  (List.range (value.length + 1)).map fun count => (value.take count, value.drop count)

def trimmed (operation : Text) (pattern : Pattern) (value : Text) : Text :=
  let found? (parts : List (Text × Text)) (side : Text × Text → Text) : Option (Text × Text) :=
    parts.find? fun part => pattern.matchesText (side part)
  match String.ofList operation with
  | "#" => ((found? (splits value) Prod.fst).map Prod.snd).getD value
  | "##" => ((found? (splits value).reverse Prod.fst).map Prod.snd).getD value
  | "%" => ((found? (splits value).reverse Prod.snd).map Prod.fst).getD value
  | "%%" => ((found? (splits value) Prod.snd).map Prod.fst).getD value
  | _ => value

/-! ### Redirection -/

inductive Target where
  | channel (channel : Channel)
  | file (path : Text)

structure Targets where
  out : Target
  err : Target

namespace Targets

def straight : Targets :=
  ⟨.channel .out, .channel .err⟩

def get (targets : Targets) (number : Nat) : Target :=
  if number = 2 then targets.err else targets.out

def set (targets : Targets) (number : Nat) (target : Target) : Targets :=
  match number with
  | 1 => { targets with out := target }
  | 2 => { targets with err := target }
  | _ => targets

def ofPath (path : Text) : Target :=
  if path = "/dev/stderr".toList then .channel .err
  else if path = "/dev/stdout".toList then .channel .out
  else .file path

def deliver (targets : Targets) (output : Output) (world : World) : World :=
  output.foldl
    (fun world (channel, bytes) =>
      let target := match channel with
        | .out => targets.out
        | .err => targets.err
      match target with
      | .channel channel => world.write channel bytes
      | .file path => world.store path (((world.file? path).getD []) ++ bytes))
    world

end Targets

/-! ### Running -/

def plainName (name : Text) : Text :=
  match Text.stripPrefix? "/usr/bin/".toList name, Text.stripPrefix? "/bin/".toList name with
  | some rest, _ => rest
  | none, some rest => rest
  | none, none => name

def printsInto (word : List Part) : Bool :=
  word.any fun part => part matches .printed _ _

def isShell (name : Text) : Bool :=
  ["sh", "dash", "bash"].any fun other => other.toList == name

mutual

def expandWithin : Nat → Shell → List Part → Shell × List Glyph
  | 0, shell, _ => (shell.stall, [])
  | _, shell, [] => (shell, [])
  | fuel + 1, shell, part :: rest =>
    let (shell, glyphs) :=
      match part with
      | .plain [] true => (shell, [Glyph.mark])
      | .plain text quoted => (shell, Glyph.ofText quoted text)
      | .parameter name quoted => (shell, shell.glyphs name quoted)
      | .altered name ['#'] [] _ =>
        (shell, Glyph.ofText true (toString (shell.value name).length).toList)
      | .altered name operation word quoted =>
        let value := shell.value name
        let present := shell.isSet name && (operation.head? != some ':' || !value.isEmpty)
        match String.ofList (operation.dropWhile (· == ':')) with
        | "-" => if present then (shell, shell.glyphs name quoted) else expandWithin fuel shell word
        | "+" => if present then expandWithin fuel shell word else (shell, [])
        | "=" =>
          if present then (shell, shell.glyphs name quoted)
          else
            let (shell, glyphs) := expandWithin fuel shell word
            let value := textOf (Glyph.chars (glyphs.filter fun glyph => !(glyph matches .mark)))
            (shell.assign name value, Glyph.ofValue quoted value)
        | _ =>
          let (shell, glyphs) := expandWithin fuel shell word
          let pattern :=
            Pattern.ofName (Glyph.chars (glyphs.filter fun glyph => !(glyph matches .mark)))
          (shell, Glyph.ofValue quoted (trimmed operation pattern value))
      | .printed script quoted =>
        let inner := runWithin fuel script
          { shell with world := { shell.world with output := [] } }
        let printed := (decode? (inner.world.output.on .out)).getD []
        let value := Text.trimEndWhere (· == '\n') printed
        let complaints := inner.world.output.filter fun entry => entry.1 == .err
        let world := { inner.world with output := shell.world.output ++ complaints }
        ({ shell with world, status := inner.status }, Glyph.ofValue quoted value)
    let (shell, others) := expandWithin fuel shell rest
    (shell, glyphs ++ others)

def expandWordsWithin : Nat → Shell → List (List Part) → Shell × List Text
  | 0, shell, _ => (shell.stall, [])
  | _, shell, [] => (shell, [])
  | fuel + 1, shell, word :: rest =>
    let (shell, glyphs) := expandWithin fuel shell word
    let (shell, others) := expandWordsWithin fuel shell rest
    (shell, (Glyph.fields none glyphs).map textOf ++ others)

def redirectWithin : Nat → Shell → Targets → List Redirect → Shell × Option Targets
  | 0, shell, _, _ => (shell.stall, none)
  | _, shell, targets, [] => (shell, some targets)
  | fuel + 1, shell, targets, redirect :: rest =>
    match redirect with
    | .channel source target =>
      redirectWithin fuel shell (targets.set source (targets.get target)) rest
    | .toFile source appends path =>
      let (shell, glyphs) := expandWithin fuel shell path
      let path := textOf (Glyph.chars (glyphs.filter fun glyph => glyph matches .char _))
      let target := Targets.ofPath path
      let world :=
        match target with
        | .file path =>
          let content := if appends then (shell.world.file? path).getD [] else []
          shell.world.store path content
        | _ => shell.world
      redirectWithin fuel { shell with world } (targets.set source target) rest
    | .fromFile path =>
      let (shell, glyphs) := expandWithin fuel shell path
      let path := textOf (Glyph.chars (glyphs.filter fun glyph => glyph matches .char _))
      match shell.world.file? path with
      | some bytes =>
        redirectWithin fuel { shell with world := { shell.world with input := bytes } } targets rest
      | none =>
        ({ shell.complain ("cannot open ".toList ++ path ++ ": No such file".toList) with
           status := 2 }, none)

def runRedirectedWithin : Nat → Shell → List Redirect → (Shell → Shell) → Shell
  | 0, shell, _, _ => shell.stall
  | fuel + 1, shell, redirects, body =>
    let (redirected, targets) := redirectWithin fuel shell .straight redirects
    match targets with
    | none => redirected
    | some targets =>
      let written := redirected.world.output
      let inner := body { redirected with world := { redirected.world with output := [] } }
      let readsFile := redirects.any fun redirect => redirect matches .fromFile _
      let input := if readsFile then shell.world.input else inner.world.input
      let world := { inner.world with output := written, input }
      { inner with world := targets.deliver inner.world.output world }

def callWithin : Nat → Text → List Text → Shell → Shell
  | 0, _, _, shell => shell.stall
  | fuel + 1, name, args, shell =>
    if name = "exit".toList then
      match args with
      | [] => { shell with ended := true }
      | status :: _ =>
        if !status.isEmpty && status.all Char.isDigit then
          { shell with status := (Print.leadingInt status).toNat % 256, ended := true }
        else
          { shell.complain ("exit: Illegal number: ".toList ++ status) with
            status := 2, ended := true }
    else if name = [':'] then { shell with status := 0 }
    else if name = "exec".toList then
      match args with
      | [] => { shell with status := 0 }
      | name :: args => { callWithin fuel name args shell with ended := true }
    else if isShell (plainName name) then
      let (status, world) := runShellWithin fuel (plainName name) args shell.world
      { shell with world, status }
    else
      match program? (plainName name) with
      | some program =>
        let (status, world) := program args shell.world
        { shell with world, status }
      | none => { shell.complain (name ++ ": not found".toList) with status := 127 }

def runWithin : Nat → Script → Shell → Shell
  | 0, _, shell => shell.stall
  | fuel + 1, script, shell =>
    if shell.ended then shell
    else
      match script with
      | .skip => shell
      | .simple below assignments words redirects =>
        let shell := { shell with line := shell.lineFeeds - below + 1 }
        let (shell, words) := expandWordsWithin fuel shell words
        let shell := assignWithin fuel assignments shell
        if shell.ended then shell
        else
          match words with
          | [] =>
            let status := if assignments.any (printsInto ·.2) then shell.status else 0
            runRedirectedWithin fuel { shell with status } redirects id
          | name :: args => runRedirectedWithin fuel shell redirects (callWithin fuel name args)
      | .group inner body redirects =>
        let after := runRedirectedWithin fuel shell redirects (runWithin fuel body)
        if inner then { shell with world := after.world, status := after.status } else after
      | .branch condition yes no =>
        let shell := runWithin fuel condition shell
        if shell.ended then shell
        else if shell.status = 0 then runWithin fuel yes shell
        else runWithin fuel no { shell with status := 0 }
      | .loop holds condition body =>
        let before := shell.status
        let shell := runWithin fuel condition shell
        if shell.ended then shell
        else if (shell.status == 0) != holds then { shell with status := before }
        else runWithin fuel (.loop holds condition body) (runWithin fuel body shell)
      | .each name words body =>
        let (shell, words) := expandWordsWithin fuel shell words
        repeatWithin fuel name body words { shell with status := 0 }
      | .aside script =>
        let after := runWithin fuel script shell
        let world := { after.world with elapsedMs := shell.world.elapsedMs }
        { shell with world, status := 0 }
      | .choice subject arms =>
        let (shell, glyphs) := expandWithin fuel shell subject
        let subject := textOf (Glyph.chars (glyphs.filter fun glyph => !(glyph matches .mark)))
        chooseWithin fuel subject arms { shell with status := 0 }
      | .pipe first second =>
        let source := runWithin fuel first
          { shell with world := { shell.world with output := [] } }
        let complaints := source.world.output.filter fun entry => entry.1 == .err
        let sink := runWithin fuel second
          { shell with
            world :=
              { source.world with
                output := shell.world.output ++ complaints
                input := source.world.output.on .out } }
        let world := { sink.world with input := source.world.input }
        { shell with world, status := sink.status }
      | .negate script =>
        let shell := runWithin fuel script shell
        if shell.ended then shell else { shell with status := if shell.status = 0 then 1 else 0 }
      | .andThen first second =>
        let shell := runWithin fuel first shell
        if shell.status = 0 then runWithin fuel second shell else shell
      | .orElse first second =>
        let shell := runWithin fuel first shell
        if shell.status = 0 then shell else runWithin fuel second shell
      | .next first second => runWithin fuel second (runWithin fuel first shell)

def repeatWithin : Nat → Text → Script → List Text → Shell → Shell
  | 0, _, _, _, shell => shell.stall
  | _, _, _, [], shell => shell
  | fuel + 1, name, body, word :: rest, shell =>
    repeatWithin fuel name body rest (runWithin fuel body (shell.assign name word))

def assignWithin : Nat → List (Text × List Part) → Shell → Shell
  | 0, _, shell => shell.stall
  | _, [], shell => shell
  | fuel + 1, (name, value) :: rest, shell =>
    let (shell, glyphs) := expandWithin fuel shell value
    let value := textOf (Glyph.chars (glyphs.filter fun glyph => !(glyph matches .mark)))
    assignWithin fuel rest (shell.assign name value)

def chooseWithin : Nat → Text → List (List (List Part) × Script) → Shell → Shell
  | 0, _, _, shell => shell.stall
  | _, _, [], shell => shell
  | fuel + 1, subject, (patterns, body) :: rest, shell =>
    let (shell, found) := matchWithin fuel subject patterns shell
    if found then runWithin fuel body shell else chooseWithin fuel subject rest shell

def matchWithin : Nat → Text → List (List Part) → Shell → Shell × Bool
  | 0, _, _, shell => (shell.stall, false)
  | _, _, [], shell => (shell, false)
  | fuel + 1, subject, pattern :: rest, shell =>
    let (shell, glyphs) := expandWithin fuel shell pattern
    let name := Glyph.chars (glyphs.filter fun glyph => !(glyph matches .mark))
    if (Pattern.ofName name).matchesText subject then (shell, true)
    else matchWithin fuel subject rest shell

def runShellWithin : Nat → Text → List Text → World → Nat × World
  | 0, _, _, world => (0, world.wait World.forever)
  | fuel + 1, name, args, world =>
    let run (script name : Text) (args : List Text) (world : World) : Nat × World :=
      match Script.parse? script with
      | some parsed =>
        let shell := runWithin fuel parsed
          { world, name, lineFeeds := script.count '\n', line := 1, args, bindings := [],
            status := 0, ended := false }
        (shell.status, shell.world)
      | none => (2, world.complain (name ++ ": 1: Syntax error".toList))
    match args with
    | ['-', 'c'] :: script :: own :: args => run script own args world
    | ['-', 'c'] :: script :: [] => run script name [] world
    | ['-', 'c'] :: [] => (2, world.complain (name ++ ": 0: -c requires an argument".toList))
    | [] =>
      let (input, world) := world.takeInput
      run ((decode? input).getD []) name [] world
    | path :: args =>
      match world.file? path with
      | some bytes => run ((decode? bytes).getD []) path args world
      | none =>
        (2, world.complain
          (name ++ ": 0: cannot open ".toList ++ path ++ ": No such file".toList))

end

/-- The steps that any command may take. Only loops take as many, and one that
does is taken for one without an end. -/
def stepLimit : Nat :=
  10000

def call? (name : Text) (args : List Text) (world : World) : Option (Nat × World) :=
  let plain := plainName name
  if isShell plain then some (runShellWithin stepLimit plain args world)
  else (program? plain).map fun program => program args world

end DiagramSync.Command
