import DiagramSync.Text.Basic

/-!
The characters of TOML texts, and what may stand between two items: white
space, line ends and comments.
-/

namespace DiagramSync.Toml

def isControl (c : Char) : Bool :=
  (c.toNat < 0x20 && c != '\t') || c.toNat == 0x7F

def after? (c : Char) : Text → Option Text
  | first :: rest => if first = c then some rest else none
  | [] => none

def hexDigit? (c : Char) : Option Nat :=
  if c.isDigit then some (c.toNat - '0'.toNat)
  else if 'a' ≤ c ∧ c ≤ 'f' then some (c.toNat - 'a'.toNat + 10)
  else if 'A' ≤ c ∧ c ≤ 'F' then some (c.toNat - 'A'.toNat + 10)
  else none

def lineEnd? : Text → Option Text
  | '\n' :: rest => some rest
  | '\r' :: '\n' :: rest => some rest
  | _ => none

/-- Skips white space, line ends and comments; `inComment` holds behind a `#`. -/
def skipGapFrom (inComment : Bool) : Text → Text
  | [] => []
  | '\r' :: '\n' :: rest => skipGapFrom false rest
  | c :: rest =>
    if c = '\n' then skipGapFrom false rest
    else if inComment && !isControl c then skipGapFrom true rest
    else if inComment then c :: rest
    else if Text.isSpace c then skipGapFrom false rest
    else if c = '#' then skipGapFrom true rest
    else c :: rest

def skipGap (text : Text) : Text :=
  skipGapFrom false text

def endStatement? (text : Text) : Option Text :=
  let rest := Text.skipSpaces text
  let rest :=
    match rest with
    | '#' :: comment => comment.dropWhile fun c => !isControl c
    | rest => rest
  if rest.isEmpty then some [] else lineEnd? rest

end DiagramSync.Toml
