import DiagramSync.Command.Basic

/-!
The programs that print their arguments: `echo` and `printf`.
-/

namespace DiagramSync.Command

namespace Print

/-! ### Escapes -/

def letterEscape? : Char → Option Char
  | 'a' => some '\x07'
  | 'b' => some '\x08'
  | 'f' => some '\x0c'
  | 'n' => some '\n'
  | 'r' => some '\r'
  | 't' => some '\t'
  | 'v' => some '\x0b'
  | '\\' => some '\\'
  | _ => none

def isOctal (c : Char) : Bool :=
  '0' ≤ c && c ≤ '7'

def octalByte (digits : Text) : UInt8 :=
  UInt8.ofNat (digits.foldl (fun n c => n * 8 + (c.toNat - '0'.toNat)) 0)

/-- Text with escapes written out as bytes. `stop` tells of an escape that ends
all output. -/
structure Unescaped where
  bytes : Bytes
  stop : Bool

namespace Unescaped

def put (bytes : Bytes) (rest : Unescaped) : Unescaped :=
  { rest with bytes := bytes ++ rest.bytes }

end Unescaped

/-- The byte of the octal code that the text begins with, and the text behind
it. `leadingZero` says that the digits follow a zero. -/
def octalEscape? (leadingZero : Bool) (text : Text) : Option (UInt8 × Text) :=
  let code (text : Text) : UInt8 × Text :=
    let digits := (text.take 3).takeWhile isOctal
    (octalByte digits, text.drop digits.length)
  match text with
  | c :: rest =>
    if leadingZero then (if c = '0' then some (code rest) else none)
    else if isOctal c then some (code text) else none
  | [] => none

def unescapeWithin (leadingZero : Bool) : Nat → Text → Unescaped
  | 0, _ | _, [] => ⟨[], false⟩
  | fuel + 1, '\\' :: rest =>
    match octalEscape? leadingZero rest with
    | some (byte, rest) => (unescapeWithin leadingZero fuel rest).put [byte]
    | none =>
      match rest with
      | 'c' :: _ => ⟨[], true⟩
      | c :: rest =>
        match letterEscape? c with
        | some escaped => (unescapeWithin leadingZero fuel rest).put (encode [escaped])
        | none => (unescapeWithin leadingZero fuel (c :: rest)).put (encode ['\\'])
      | [] => ⟨encode ['\\'], false⟩
  | fuel + 1, c :: rest => (unescapeWithin leadingZero fuel rest).put (encode [c])

def unescape (leadingZero : Bool) (text : Text) : Unescaped :=
  unescapeWithin leadingZero (text.length + 1) text

/-! ### Formats -/

def leadingInt (argument : Text) : Int :=
  let digits (text : Text) : Nat :=
    (text.takeWhile Char.isDigit).foldl (fun n c => n * 10 + (c.toNat - '0'.toNat)) 0
  match argument with
  | '-' :: rest => -(digits rest : Int)
  | '+' :: rest => digits rest
  | text => digits text

def directive? (letter : Char) (argument : Text) : Option Bytes :=
  match letter with
  | 's' => some (encode argument)
  | 'b' => some (unescape true argument).bytes
  | 'c' => some (encode (argument.take 1))
  | 'd' | 'i' | 'u' => some (encode (toString (leadingInt argument)).toList)
  | _ => none

def formatOnce : Nat → Text → List Text → Bytes × List Text
  | 0, _, args | _, [], args => ([], args)
  | fuel + 1, '%' :: '%' :: rest, args =>
    let (bytes, args) := formatOnce fuel rest args
    (encode ['%'] ++ bytes, args)
  | fuel + 1, '%' :: letter :: rest, args =>
    match directive? letter (args.headD []) with
    | some written =>
      let (bytes, args) := formatOnce fuel rest args.tail
      (written ++ bytes, args)
    | none =>
      let (bytes, args) := formatOnce fuel (letter :: rest) args
      (encode ['%'] ++ bytes, args)
  | fuel + 1, c :: rest, args =>
    let plain := (c :: rest).takeWhile (· != '%')
    if plain.isEmpty then
      let (bytes, args) := formatOnce fuel rest args
      (encode [c] ++ bytes, args)
    else
      let (bytes, args) := formatOnce fuel ((c :: rest).dropWhile (· != '%')) args
      ((unescape false plain).bytes ++ bytes, args)

def formatAll : Nat → Text → List Text → Bytes
  | 0, _, _ => []
  | fuel + 1, format, args =>
    let (bytes, rest) := formatOnce (format.length + 1) format args
    if rest.isEmpty || rest.length == args.length then bytes
    else bytes ++ formatAll fuel format rest

end Print

def echo : Program := fun args world =>
  let (lineFeed, args) :=
    match args with
    | ['-', 'n'] :: rest => ([], rest)
    | args => (['\n'], args)
  let line := Print.unescape true ([' '].intercalate args)
  (0, world.write .out (if line.stop then line.bytes else line.bytes ++ encode lineFeed))

def printf : Program := fun args world =>
  match args with
  | [] => (2, world.complain "printf: usage: printf format [arg ...]".toList)
  | format :: args => (0, world.write .out (Print.formatAll (args.length + 1) format args))

end DiagramSync.Command
