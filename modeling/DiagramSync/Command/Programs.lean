import DiagramSync.Command.Condition
import DiagramSync.Command.LineSearch
import DiagramSync.Command.Print

/-!
The programs that a validator command can be made of.
-/

namespace DiagramSync.Command

def missing (program path : Text) : Text :=
  program ++ ": ".toList ++ path ++ ": No such file or directory".toList

/-! ### Copying -/

def catFiles : List Text → World → Nat × World
  | [], world => (0, world)
  | path :: rest, world =>
    match world.read? path with
    | (some bytes, world) => catFiles rest (world.write .out bytes)
    | (none, world) =>
      let (_, world) := catFiles rest (world.complain (missing "cat".toList path))
      (1, world)

def cat : Program := fun args world =>
  catFiles (if args.isEmpty then [['-']] else args) world

def cp : Program := fun args world =>
  match args with
  | [source, target] =>
    match world.read? source with
    | (some bytes, world) => (0, world.store target bytes)
    | (none, world) =>
      (1, world.complain
        ("cp: cannot stat '".toList ++ source ++ "': No such file or directory".toList))
  | [] =>
    (1, world.complain
      "cp: missing file operand\nTry 'cp --help' for more information.".toList)
  | _ => (1, world.complain "cp: target is not a directory".toList)

/-! ### Measuring -/

def countOf (letter : Char) (bytes : Bytes) : Nat :=
  match letter with
  | 'l' => bytes.count 10
  | 'w' => (Text.words ((decode? bytes).getD [])).length
  | 'm' => ((decode? bytes).getD []).length
  | _ => bytes.length

def wc : Program := fun args world =>
  let (letters, files) :=
    match args with
    | ('-' :: letter :: _) :: rest => ([letter], rest)
    | args => (['l', 'w', 'c'], args)
  let path := files.headD ['-']
  match world.read? path with
  | (some bytes, world) =>
    let counts := letters.map fun letter => (toString (countOf letter bytes)).toList
    let name := if files.isEmpty then [] else [path]
    (0, world.write .out (encode ([' '].intercalate (counts ++ name) ++ ['\n'])))
  | (none, world) => (1, world.complain (missing "wc".toList path))

def head : Program := fun args world =>
  let number (text : Text) : Nat := (Print.leadingInt text).toNat
  let (byBytes, count, files) :=
    match args with
    | ['-', 'n'] :: count :: rest => (false, number count, rest)
    | ('-' :: 'n' :: count) :: rest => (false, number count, rest)
    | ['-', 'c'] :: count :: rest => (true, number count, rest)
    | ('-' :: 'c' :: count) :: rest => (true, number count, rest)
    | ('-' :: c :: count) :: rest =>
      if c.isDigit then (false, number (c :: count), rest) else (false, 10, rest)
    | args => (false, 10, args)
  let path := files.headD ['-']
  match world.read? path with
  | (some bytes, world) =>
    let text := (decode? bytes).getD []
    let chosen :=
      if byBytes then bytes.take count else encode ((Text.pieces text).take count).flatten
    (0, world.write .out chosen)
  | (none, world) => (1, world.complain (missing "head".toList path))

/-! ### Waiting -/

def unit? : Text → Option Nat
  | [] | ['s'] => some 1
  | ['m'] => some 60
  | ['h'] => some 3600
  | ['d'] => some 86400
  | _ => none

/-- A decimal number that the text begins with: its digits, the power of ten that they
are multiplied by, and the rest. -/
def decimal? (text : Text) : Option (Nat × Int × Text) :=
  let digits := text.takeWhile Char.isDigit
  let rest := text.dropWhile Char.isDigit
  let (decimals, rest) :=
    match rest with
    | '.' :: rest => (rest.takeWhile Char.isDigit, rest.dropWhile Char.isDigit)
    | rest => ([], rest)
  let value := (Print.leadingInt (digits ++ decimals)).toNat
  let shift : Int := -decimals.length
  let exponent? (rest : Text) : Option (Int × Text) :=
    let (sign, unsigned) :=
      match rest with
      | '-' :: unsigned => ((-1 : Int), unsigned)
      | '+' :: unsigned => (1, unsigned)
      | unsigned => (1, unsigned)
    (Text.span1? Char.isDigit unsigned).map fun (exponent, rest) =>
      (sign * Print.leadingInt exponent, rest)
  if digits.isEmpty && decimals.isEmpty then none
  else
    match rest with
    | mark :: behind =>
      match if mark.toLower == 'e' then exponent? behind else none with
      | some (exponent, rest) => some (value, shift + exponent, rest)
      | none => some (value, shift, mark :: behind)
    | [] => some (value, shift, [])

/-- A length of time in milliseconds: a number of seconds, with a letter for
another unit behind it, or a word for no end. -/
def duration? (text : Text) : Option Nat := do
  let text := (Text.stripPrefix? ['+'] text).getD text
  let endless? (word : String) : Option Text := Text.stripPrefixNoCase? word.toList text
  match (endless? "infinity").or (endless? "inf") with
  | some rest =>
    let _ ← unit? rest
    return World.forever
  | none =>
    let (digits, shift, rest) ← decimal? text
    let seconds ← unit? rest
    let shift := shift + 3
    if 0 ≤ shift then return digits * seconds * Nat.pow 10 (min shift.toNat 30)
    else return digits * seconds / Nat.pow 10 (min (-shift).toNat 1000)

def sleep : Program := fun args world =>
  let advice := "\nTry 'sleep --help' for more information.".toList
  match args with
  | [] => (1, world.complain ("sleep: missing operand".toList ++ advice))
  | args =>
    match args.find? fun arg => (duration? arg).isNone with
    | none => (0, world.wait ((args.filterMap duration?).foldl (· + ·) 0))
    | some ('-' :: letter :: _) =>
      (1, world.complain ("sleep: invalid option -- '".toList ++ [letter] ++ ['\''] ++ advice))
    | some arg =>
      (1, world.complain ("sleep: invalid time interval '".toList ++ arg ++ ['\''] ++ advice))

/-! ### All programs -/

def constant (status : Nat) : Program := fun _ world =>
  (status, world)

def program? (name : Text) : Option Program :=
  match String.ofList name with
  | "true" => some (constant 0)
  | "false" => some (constant 1)
  | "echo" => some echo
  | "printf" => some printf
  | "test" => some test
  | "[" => some testBracket
  | "cat" => some cat
  | "cp" => some cp
  | "grep" => some grep
  | "wc" => some wc
  | "head" => some head
  | "sleep" => some sleep
  | _ => none

end DiagramSync.Command
