import DiagramSync.Text.Basic

/-!
Labels and identifiers in diagram markup.
-/

namespace DiagramSync.Label

/-! ### Quoted labels -/

def flatten (text : Text) : Text :=
  let parts := (text.splitOnP fun c => c == '\r' || c == '\n').filter fun part => !part.isEmpty
  Text.trim ([' '].intercalate parts)

/-- The written form of one character: `#` opens a character code and a quote
would end the label, so both are written as codes. -/
def escapeChar (c : Char) : Text :=
  if c = '#' then "#35;".toList
  else if c = '"' then "#quot;".toList
  else [c]

def escape (text : String) : String :=
  String.ofList ((flatten text.toList).flatMap escapeChar)

/-! ### Node letters -/

def letter (digit : Nat) : Char :=
  Char.ofNat ('A'.toNat + digit)

/-- The letters that stand for a number from 1 on, without a zero: `A` is 1, `Z`
is 26, `AA` is 27. -/
def lettersOf (n : Nat) : Text :=
  if n = 0 then [] else lettersOf ((n - 1) / 26) ++ [letter ((n - 1) % 26)]
termination_by n
decreasing_by omega

def letters (index : Nat) : String :=
  String.ofList (lettersOf (index + 1))

/-! ### Entity identifiers -/

def isIdChar (c : Char) : Bool :=
  Text.isAsciiAlphanum c || c == '_' || c == '-'

def sanitize (name : String) : Text :=
  let id := (Text.trim name.toList).map fun c => if isIdChar c then c else '_'
  match id with
  | [] => ['_']
  | c :: _ => if c.isDigit || c == '-' then '_' :: id else id

def numbered (base : Text) (k : Nat) : Text :=
  base ++ '_' :: (toString (k + 2)).toList

/-- One more than the `count` identifiers that are taken, so one of them is free. -/
def candidates (base : Text) (count : Nat) : List Text :=
  base :: (List.range count).map (numbered base)

def fresh (base : Text) (taken : List Text) : Text :=
  ((candidates base taken.length).find? fun id => !taken.contains id).getD base

def assignIds (taken : List Text) : List String → List Text
  | [] => []
  | name :: rest =>
    let id := fresh (sanitize name) taken
    id :: assignIds (taken ++ [id]) rest

def identifiers (names : List String) : List String :=
  (assignIds [] names).map String.ofList

end DiagramSync.Label
