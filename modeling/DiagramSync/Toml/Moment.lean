import DiagramSync.Toml.Basic

/-!
Dates and times of TOML: a date, a time, or a date and a time with a letter or a
space between them, and then perhaps a difference from universal time.
-/

namespace DiagramSync.Toml

/-! ### Digits -/

def decimalValue (digits : Text) : Nat :=
  digits.foldl (fun n c => n * 10 + (c.toNat - '0'.toNat)) 0

def twoDigits? (low high : Nat) : Text → Option (Nat × Text)
  | a :: b :: rest =>
    if a.isDigit && b.isDigit then
      let n := decimalValue [a, b]
      if low ≤ n ∧ n ≤ high then some (n, rest) else none
    else none
  | _ => none

/-! ### Dates -/

def daysOf (year month : Nat) : Nat :=
  match month with
  | 4 | 6 | 9 | 11 => 30
  | 2 => if year % 4 = 0 ∧ (year % 100 ≠ 0 ∨ year % 400 = 0) then 29 else 28
  | _ => 31

def afterDate? (text : Text) : Option Text := do
  let year := text.take 4
  let rest := text.drop 4
  if year.length = 4 ∧ year.all Char.isDigit then
    let rest ← after? '-' rest
    let (month, rest) ← twoDigits? 1 12 rest
    let rest ← after? '-' rest
    let (_, rest) ← twoDigits? 1 (daysOf (decimalValue year) month) rest
    return rest
  else
    none

def isDate (word : Text) : Bool :=
  afterDate? word == some []

/-! ### Times -/

def afterFraction? (text : Text) : Option Text :=
  match text with
  | '.' :: rest => (Text.span1? Char.isDigit rest).map Prod.snd
  | text => some text

/-- What follows the time that the text begins with. The seconds may be left out. -/
def afterTime? (text : Text) : Option Text := do
  let (_, rest) ← twoDigits? 0 23 text
  let rest ← after? ':' rest
  let (_, rest) ← twoDigits? 0 59 rest
  match after? ':' rest with
  | none => return rest
  | some rest =>
    let (_, rest) ← twoDigits? 0 60 rest
    afterFraction? rest

def isOffset (text : Text) : Bool :=
  match text with
  | [] => true
  | ['z'] | ['Z'] => true
  | sign :: rest =>
    (sign == '+' || sign == '-') &&
      ((do
        let (_, rest) ← twoDigits? 0 23 rest
        let rest ← after? ':' rest
        let (_, rest) ← twoDigits? 0 59 rest
        return rest : Option Text) == some [])

def isTime (word : Text) : Bool :=
  afterTime? word == some []

/-! ### Both -/

def isDateTime (word : Text) : Bool :=
  match afterDate? word with
  | some (separator :: rest) =>
    (separator == 'T' || separator == 't' || separator == ' ') &&
      ((afterTime? rest).map isOffset).getD false
  | _ => false

def isMoment (word : Text) : Bool :=
  isDate word || isTime word || isDateTime word

end DiagramSync.Toml
