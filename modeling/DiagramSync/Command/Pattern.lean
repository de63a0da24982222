import DiagramSync.Text.Basic

/-!
Patterns of text, as commands use them to choose lines and names. Matching goes
through the text once: the part of a pattern that is left to match behind a
symbol is a pattern again.
-/

namespace DiagramSync.Command

/-- What a pattern is matched against: the characters and both ends of a line. -/
inductive Symbol where
  | lineStart
  | lineEnd
  | char (c : Char)
  deriving Repr, DecidableEq

inductive Pattern where
  | never
  | nothing
  | one (accepts : Symbol → Bool)
  | follows (first second : Pattern)
  | either (first second : Pattern)
  | repeated (pattern : Pattern)

namespace Pattern

def matchesNothing : Pattern → Bool
  | .never => false
  | .nothing => true
  | .one _ => false
  | .follows first second => first.matchesNothing && second.matchesNothing
  | .either first second => first.matchesNothing || second.matchesNothing
  | .repeated _ => true

def after (symbol : Symbol) : Pattern → Pattern
  | .never => .never
  | .nothing => .never
  | .one accepts => if accepts symbol then .nothing else .never
  | .follows first second =>
    let rest := follows (first.after symbol) second
    if first.matchesNothing then .either rest (second.after symbol) else rest
  | .either first second => .either (first.after symbol) (second.after symbol)
  | .repeated pattern => .follows (pattern.after symbol) (.repeated pattern)

def simplify : Pattern → Pattern
  | .follows first second =>
    match first.simplify, second.simplify with
    | .never, _ => .never
    | _, .never => .never
    | .nothing, second => second
    | first, second => .follows first second
  | .either first second =>
    match first.simplify, second.simplify with
    | .never, second => second
    | first, .never => first
    | first, second => .either first second
  | pattern => pattern

def accepts (pattern : Pattern) : List Symbol → Bool
  | [] => pattern.matchesNothing
  | symbol :: rest => (pattern.after symbol).simplify.accepts rest

def oneOf (accepts : Char → Bool) : Pattern :=
  .one fun symbol =>
    match symbol with
    | .char c => accepts c
    | _ => false

def literal (c : Char) : Pattern :=
  oneOf fun other => other == c

def anyChar : Pattern :=
  oneOf fun _ => true

def anything : Pattern :=
  .repeated (.one fun _ => true)

def sequence (patterns : List Pattern) : Pattern :=
  patterns.foldr .follows .nothing

def exactly (text : Text) : Pattern :=
  sequence (text.map literal)

def matchesText (pattern : Pattern) (text : Text) : Bool :=
  pattern.accepts (text.map .char)

def occursIn (pattern : Pattern) (line : Text) : Bool :=
  (sequence [anything, pattern, anything]).accepts
    ([.lineStart] ++ line.map .char ++ [.lineEnd])

/-! ### Bracket expressions -/

def isMember : Text → Char → Bool
  | low :: '-' :: high :: rest, c => (low ≤ c && c ≤ high) || isMember rest c
  | first :: rest, c => first == c || isMember rest c
  | [], _ => false

/-- Reads a bracket expression behind its opening bracket. `negations` are the
characters that turn it into its opposite. A closing bracket that comes first
stands for itself. -/
def bracket? (negations : List Char) (text : Text) : Option (Pattern × Text) :=
  let (negated, text) :=
    match text with
    | c :: rest => if negations.contains c then (true, rest) else (false, text)
    | [] => (false, [])
  let (first, rest) :=
    match text with
    | ']' :: rest => ([']'], rest)
    | text => ([], text)
  match rest.dropWhile (· != ']') with
  | ']' :: behind =>
    let members := first ++ rest.takeWhile (· != ']')
    some (oneOf fun c => isMember members c != negated, behind)
  | _ => none

/-! ### Patterns of names -/

structure NameChar where
  char : Char
  quoted : Bool
  deriving Repr, DecidableEq

def ofNameWithin (fuel : Nat) (name : List NameChar) : Pattern :=
  match fuel, name with
  | 0, _ => .never
  | _, [] => .nothing
  | fuel + 1, ⟨c, true⟩ :: rest => .follows (literal c) (ofNameWithin fuel rest)
  | fuel + 1, ⟨c, false⟩ :: rest =>
    if c = '*' then .follows (.repeated anyChar) (ofNameWithin fuel rest)
    else if c = '?' then .follows anyChar (ofNameWithin fuel rest)
    else if c = '[' then
      match bracket? ['!', '^'] (rest.map NameChar.char) with
      | some (pattern, behind) =>
        .follows pattern (ofNameWithin fuel (rest.drop (rest.length - behind.length)))
      | none => .follows (literal c) (ofNameWithin fuel rest)
    else .follows (literal c) (ofNameWithin fuel rest)

def ofName (name : List NameChar) : Pattern :=
  ofNameWithin (name.length + 1) name

/-! ### Patterns of lines -/

/-- What has been read of a pattern of lines: whole alternatives, the parts of
the last one, and its last part, which a repetition is about. -/
structure LineReading where
  alternatives : List Pattern
  parts : List Pattern
  last : Option Pattern

namespace LineReading

def start : LineReading :=
  ⟨[], [], none⟩

def allParts (reading : LineReading) : List Pattern :=
  reading.parts ++ reading.last.toList

def part (pattern : Pattern) (reading : LineReading) : LineReading :=
  { reading with parts := reading.allParts, last := some pattern }

def repeatLast (change : Pattern → Pattern) (reading : LineReading) : LineReading :=
  { reading with last := reading.last.map change }

def alternative (reading : LineReading) : LineReading :=
  ⟨reading.alternatives ++ [sequence reading.allParts], [], none⟩

def pattern (reading : LineReading) : Pattern :=
  reading.alternatives.foldr .either (sequence reading.allParts)

def atStart (reading : LineReading) : Bool :=
  reading.allParts.isEmpty

end LineReading

/-- Reads a pattern of lines. In the extended form `+`, `?` and `|` have their
meaning without a backslash, in the basic form with one. Groups are not read. -/
def ofLineWithin (extended : Bool) : Nat → LineReading → Text → LineReading
  | 0, reading, _ => reading
  | _, reading, [] => reading
  | fuel + 1, reading, c :: rest =>
    let next := ofLineWithin extended fuel
    let operator (c : Char) (rest : Text) : LineReading :=
      if c = '+' then
        next (reading.repeatLast fun pattern => .follows pattern (.repeated pattern)) rest
      else if c = '?' then next (reading.repeatLast fun pattern => .either .nothing pattern) rest
      else if c = '|' then next reading.alternative rest
      else next (reading.part (literal c)) rest
    if c = '\\' then
      match rest with
      | d :: rest => if extended then next (reading.part (literal d)) rest else operator d rest
      | [] => next (reading.part (literal c)) []
    else if c = '.' then next (reading.part anyChar) rest
    else if c = '^' && reading.atStart then next (reading.part (.one (· == .lineStart))) rest
    else if c = '$' && rest.isEmpty then next (reading.part (.one (· == .lineEnd))) rest
    else if c = '*' && reading.last.isSome then next (reading.repeatLast .repeated) rest
    else if c = '[' then
      match bracket? ['^'] rest with
      | some (pattern, rest) => next (reading.part pattern) rest
      | none => next (reading.part (literal c)) rest
    else if extended then operator c rest
    else next (reading.part (literal c)) rest

def ofLine (extended : Bool) (text : Text) : Pattern :=
  (ofLineWithin extended (text.length + 1) .start text).pattern

end Pattern
end DiagramSync.Command
