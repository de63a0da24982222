/-!
Text under scan: a list of characters, measured in the bytes of its UTF-8 form.

Documents, lines and the rest of a line still to be read are `Text`; what is
recorded or reported is `String`. Every operation here is total and follows the
characters, so its laws are inductions on the list.
-/

namespace DiagramSync

abbrev Text := List Char

namespace Text

/-! ### Classes of characters -/

def isSpace (c : Char) : Bool :=
  c == ' ' || c == '\t'

/-- The characters with the Unicode property White_Space. -/
def isWhite (c : Char) : Bool :=
  let n := c.toNat
  (9 ≤ n && n ≤ 13) || n == 0x20 || n == 0x85 || n == 0xA0 || n == 0x1680 ||
    (0x2000 ≤ n && n ≤ 0x200A) || n == 0x2028 || n == 0x2029 || n == 0x202F ||
    n == 0x205F || n == 0x3000

def isAsciiAlphanum (c : Char) : Bool :=
  c.isAlphanum

/-! ### Size and cutting by bytes -/

def size : Text → Nat
  | [] => 0
  | c :: cs => c.utf8Size + size cs

@[simp] theorem size_nil : size [] = 0 := rfl

@[simp] theorem size_cons (c : Char) (cs : Text) : size (c :: cs) = c.utf8Size + size cs := rfl

@[simp] theorem size_append (a b : Text) : size (a ++ b) = size a + size b := by
  induction a with
  | nil => simp
  | cons c cs ih => simp [ih, Nat.add_assoc]

/-- The text after its first `n` bytes; a character that is cut goes whole. -/
def dropBytes (n : Nat) : Text → Text
  | [] => []
  | c :: cs => if n = 0 then c :: cs else dropBytes (n - c.utf8Size) cs

def takeBytes (n : Nat) : Text → Text
  | [] => []
  | c :: cs => if c.utf8Size ≤ n then c :: takeBytes (n - c.utf8Size) cs else []

def slice (start stop : Nat) (cs : Text) : Text :=
  takeBytes (stop - start) (dropBytes start cs)

@[simp] theorem dropBytes_size_append (a b : Text) : dropBytes (size a) (a ++ b) = b := by
  induction a with
  | nil => cases b <;> simp [dropBytes]
  | cons c cs ih =>
    have hne : c.utf8Size ≠ 0 := Nat.ne_of_gt c.utf8Size_pos
    simp [dropBytes, hne, ih]

@[simp] theorem takeBytes_size_append (a b : Text) : takeBytes (size a) (a ++ b) = a := by
  induction a with
  | nil =>
    cases b with
    | nil => rfl
    | cons c cs =>
      have hpos : 0 < c.utf8Size := c.utf8Size_pos
      simp [takeBytes, Nat.not_le.mpr hpos]
  | cons c cs ih => simp [takeBytes, ih]

theorem slice_append (a b c : Text) : slice (size a) (size a + size b) (a ++ (b ++ c)) = b := by
  simp [slice]

/-! ### Trimming -/

def trimStart (cs : Text) : Text :=
  cs.dropWhile isWhite

def trimEndWhere (drop : Char → Bool) (cs : Text) : Text :=
  (cs.reverse.dropWhile drop).reverse

def trimEnd (cs : Text) : Text :=
  trimEndWhere isWhite cs

def trim (cs : Text) : Text :=
  trimEnd (trimStart cs)

def skipSpaces (cs : Text) : Text :=
  cs.dropWhile isSpace

def skipSpaces1? : Text → Option Text
  | c :: cs => if isSpace c then some (skipSpaces cs) else none
  | [] => none

def isBlank (cs : Text) : Bool :=
  cs.all isWhite

/-! ### Beginnings and endings -/

def stripPrefix? : Text → Text → Option Text
  | [], cs => some cs
  | _ :: _, [] => none
  | p :: ps, c :: cs => if p = c then stripPrefix? ps cs else none

def stripPrefixNoCase? : Text → Text → Option Text
  | [], cs => some cs
  | _ :: _, [] => none
  | p :: ps, c :: cs => if p.toLower = c.toLower then stripPrefixNoCase? ps cs else none

def stripSuffix? (ending cs : Text) : Option Text :=
  (stripPrefix? ending.reverse cs.reverse).map List.reverse

def endsWith (ending cs : Text) : Bool :=
  (stripSuffix? ending cs).isSome

def equalsNoCase (a b : Text) : Bool :=
  a.map Char.toLower == b.map Char.toLower

theorem stripPrefix?_eq_some_iff {p cs rest : Text} :
    stripPrefix? p cs = some rest ↔ cs = p ++ rest := by
  induction p generalizing cs with
  | nil => simp [stripPrefix?, eq_comm]
  | cons a p ih =>
    cases cs with
    | nil => simp [stripPrefix?]
    | cons c cs =>
      by_cases h : a = c
      · simp [stripPrefix?, h, ih]
      · simp [stripPrefix?, h, Ne.symm h]

@[simp] theorem stripPrefix?_append (p rest : Text) : stripPrefix? p (p ++ rest) = some rest :=
  stripPrefix?_eq_some_iff.mpr rfl

/-! ### Searching -/

def splitOnce? (pattern : Text) : Text → Option (Text × Text)
  | [] => if pattern.isEmpty then some ([], []) else none
  | c :: cs =>
    match stripPrefix? pattern (c :: cs) with
    | some rest => some ([], rest)
    | none => (splitOnce? pattern cs).map fun (before, after) => (c :: before, after)

/-- Cuts the text in front of its last end part that `begins` accepts. -/
def splitAtLast? (begins : Text → Bool) : Text → Option (Text × Text)
  | [] => none
  | c :: cs =>
    match splitAtLast? begins cs with
    | some (before, after) => some (c :: before, after)
    | none => if begins (c :: cs) then some ([], c :: cs) else none

def contains (pattern cs : Text) : Bool :=
  (splitOnce? pattern cs).isSome

/-! ### Replacing -/

def replaceAll (pattern replacement : Text) : Text → Text
  | [] => []
  | c :: cs =>
    if pattern.isPrefixOf (c :: cs) then
      replacement ++ replaceAll pattern replacement (cs.drop (pattern.length - 1))
    else
      c :: replaceAll pattern replacement cs
termination_by cs => cs.length
decreasing_by all_goals simp only [List.length_cons, List.length_drop]; omega

def replaceFirst (pattern replacement cs : Text) : Text :=
  match splitOnce? pattern cs with
  | some (before, after) => before ++ replacement ++ after
  | none => cs

def remove (drop : Char → Bool) (cs : Text) : Text :=
  cs.filter fun c => !drop c

/-! ### Pieces -/

def words (cs : Text) : List Text :=
  (cs.splitOnP isWhite).filter fun word => !word.isEmpty

/-- The text cut behind each line feed. Nothing is lost: see `flatten_pieces`. -/
def pieces : Text → List Text
  | [] => []
  | c :: cs =>
    if c = '\n' then
      ['\n'] :: pieces cs
    else
      match pieces cs with
      | [] => [[c]]
      | piece :: rest => (c :: piece) :: rest

theorem flatten_pieces (cs : Text) : (pieces cs).flatten = cs := by
  induction cs with
  | nil => rfl
  | cons c cs ih =>
    by_cases h : c = '\n'
    · simp [pieces, h, ih]
    · simp only [pieces, h, if_false]
      cases hp : pieces cs with
      | nil => simp [hp] at ih ⊢; exact ih
      | cons piece rest => simp [hp] at ih ⊢; exact ih

def dropLineFeed (piece : Text) : Text :=
  (stripSuffix? ['\n'] piece).getD piece

def dropReturn (line : Text) : Text :=
  (stripSuffix? ['\r'] line).getD line

/-- The lines of a text. A line ends with a line feed, which takes a carriage
return in front of it along; a carriage return that ends the text stays. -/
def lines (cs : Text) : List Text :=
  (pieces cs).map fun piece =>
    match stripSuffix? ['\n'] piece with
    | some line => dropReturn line
    | none => piece

def span1? (keep : Char → Bool) (cs : Text) : Option (Text × Text) :=
  match cs.takeWhile keep with
  | [] => none
  | word => some (word, cs.dropWhile keep)

end Text
end DiagramSync
