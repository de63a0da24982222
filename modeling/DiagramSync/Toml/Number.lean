import DiagramSync.Config.Tree
import DiagramSync.Toml.Moment

/-!
Numbers of TOML. Whole numbers are decimal with a sign or none, or have the mark
of another base; other numbers have a point, an exponent or both.

What has the shape of a number and is out of all bounds is a number all the same,
and so is a whole number whose digits go on, behind an underscore, with what is
no digit. It does no harm where its value is not asked for.
-/

namespace DiagramSync.Toml

/-! ### Underscores -/

/-- The word without its underscores, each of which has a digit behind it and a digit
in front. `joins` holds behind a digit. -/
def dropJoints? (isDigit : Char → Bool) (joins : Bool) : Text → Option Text
  | [] => some []
  | ['_'] => none
  | '_' :: c :: rest =>
    if joins && isDigit c then (dropJoints? isDigit true rest).map (c :: ·) else none
  | c :: rest => (dropJoints? isDigit (isDigit c) rest).map (c :: ·)

def dropSign : Text → Text
  | '-' :: rest | '+' :: rest => rest
  | text => text

def plainNumber? (isDigit : Char → Bool) : Text → Option Text
  | '-' :: rest => (dropJoints? isDigit true rest).map ('-' :: ·)
  | '+' :: rest => dropJoints? isDigit true rest
  | text => dropJoints? isDigit false text

/-! ### Whole numbers -/

def isHexDigit (c : Char) : Bool :=
  (hexDigit? c).isSome

def isOctalDigit (c : Char) : Bool :=
  '0' ≤ c && c ≤ '7'

def isBinaryDigit (c : Char) : Bool :=
  c == '0' || c == '1'

/-- A whole number, if it is in the bounds: 128 bits, where there is a sign with one
of them for it. -/
def boundedInteger (word : Text) (n : Int) : Tree :=
  if -170141183460469231731687303715884105728 ≤ n ∧
      n < 340282366920938463463374607431768211456 then
    .integer n
  else .unbounded (String.ofList word)

def signedValue? : Text → Option Int
  | '-' :: digits =>
    if !digits.isEmpty && digits.all Char.isDigit then some (-decimalValue digits) else none
  | digits =>
    if !digits.isEmpty && digits.all Char.isDigit then some (decimalValue digits) else none

def decimalInteger? (word : Text) : Option Tree :=
  let magnitude := dropSign word
  let rest := magnitude.dropWhile Char.isDigit
  if magnitude.isEmpty || (magnitude.head? == some '0' && magnitude.length != 1) then none
  else if rest.isEmpty || rest.head? == some '_' then
    (plainNumber? isHexDigit word).map fun plain =>
      match signedValue? plain with
      | some n => boundedInteger word n
      | none => .unbounded (String.ofList word)
  else none

def basedInteger? (isDigit : Char → Bool) (base : Nat) (word digits : Text) : Option Tree :=
  if digits.all fun c => isDigit c || c == '_' then
    (dropJoints? isDigit false digits).map fun plain =>
      if plain.isEmpty then .unbounded (String.ofList word)
      else
        boundedInteger word
          (plain.foldl (fun n c => n * base + (hexDigit? c).getD 0) (0 : Nat))
  else none

/-! ### Other numbers -/

structure Decimal where
  digits : Text
  exponent : Int

namespace Decimal

/-- Half a step beyond the largest number that 64 bits hold as a binary fraction. -/
def bound : Nat :=
  Nat.pow 2 1024 - Nat.pow 2 970

def isUnbounded (decimal : Decimal) : Bool :=
  let digits := decimal.digits.dropWhile (· == '0')
  let magnitude : Int := digits.length + decimal.exponent
  if digits.isEmpty || magnitude < 300 then false
  else if 400 < magnitude then true
  else if 0 ≤ decimal.exponent then
    bound ≤ decimalValue digits * Nat.pow 10 decimal.exponent.toNat
  else
    bound * Nat.pow 10 (-decimal.exponent).toNat ≤ decimalValue digits

end Decimal

def exponent? : Text → Option Int
  | [] => some 0
  | mark :: rest =>
    if mark == 'e' || mark == 'E' then
      match rest with
      | '+' :: digits => signedValue? digits
      | rest => signedValue? rest
    else none

def decimal? (text : Text) : Option Decimal := do
  let (whole, rest) ← Text.span1? Char.isDigit text
  match rest with
  | '.' :: rest =>
    let (decimals, rest) ← Text.span1? Char.isDigit rest
    return ⟨whole ++ decimals, (← exponent? rest) - decimals.length⟩
  | rest => return ⟨whole, ← exponent? rest⟩

def realNumber? (word : Text) : Option Tree := do
  let plain := dropSign (← plainNumber? Char.isDigit word)
  let decimal ← decimal? plain
  let whole := plain.takeWhile Char.isDigit
  if (dropSign word).head? = some '0' ∧ whole.length ≠ 1 then none
  else if decimal.isUnbounded then return .unbounded (String.ofList word)
  else return .real (String.ofList word)

def isNumberWord (magnitude : Text) : Bool :=
  magnitude == "inf".toList || magnitude == "nan".toList

def number? (word : Text) : Option Tree :=
  match word with
  | '0' :: 'x' :: digits => basedInteger? isHexDigit 16 word digits
  | '0' :: 'o' :: digits => basedInteger? isOctalDigit 8 word digits
  | '0' :: 'b' :: digits => basedInteger? isBinaryDigit 2 word digits
  | word =>
    if isNumberWord (dropSign word) then some (.real (String.ofList word))
    else if word.any fun c => c == '.' || c == 'e' || c == 'E' then realNumber? word
    else decimalInteger? word

end DiagramSync.Toml
