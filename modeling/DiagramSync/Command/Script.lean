import DiagramSync.Text.Basic

/-!
Scripts of commands: what they are made of, and how they are read.

A script is a list of commands that follow each other, depend on each other's
status, are repeated or pass their output on. Functions are no part of it.
-/

namespace DiagramSync.Command

mutual

/-- A part of a word. `quoted` parts are never split into several words. -/
inductive Part where
  | plain (text : Text) (quoted : Bool)
  | parameter (name : Text) (quoted : Bool)
  | altered (name operation : Text) (word : List Part) (quoted : Bool)
  /-- What a script prints, without line feeds at its end. -/
  | printed (script : Script) (quoted : Bool)

inductive Redirect where
  | channel (source target : Nat)
  | toFile (source : Nat) (appends : Bool) (path : List Part)
  | fromFile (path : List Part)

inductive Script where
  | skip
  /-- `below` counts the line feeds behind the beginning of the command. -/
  | simple (below : Nat) (assignments : List (Text × List Part)) (words : List (List Part))
      (redirects : List Redirect)
  /-- `inner` scripts cannot change the variables, nor end the script around them. -/
  | group (inner : Bool) (body : Script) (redirects : List Redirect)
  | branch (condition yes no : Script)
  | loop (holds : Bool) (condition body : Script)
  | each (name : Text) (words : List (List Part)) (body : Script)
  /-- Runs the script while those that follow it are run. -/
  | aside (script : Script)
  | choice (subject : List Part) (arms : List (List (List Part) × Script))
  | pipe (first second : Script)
  | negate (script : Script)
  | andThen (first second : Script)
  | orElse (first second : Script)
  | next (first second : Script)

end

namespace Script

/-! ### Characters -/

def isDelimiter (c : Char) : Bool :=
  [' ', '\t', '\n', ';', '&', '|', '<', '>', '(', ')'].contains c

def isNameChar (c : Char) : Bool :=
  c.isAlphanum || c == '_'

def isSpecial (c : Char) : Bool :=
  c.isDigit || ['#', '?', '@', '*', '$'].contains c

def skipBlanks : Text → Text
  | '\\' :: '\n' :: rest => skipBlanks rest
  | c :: rest => if Text.isSpace c then skipBlanks rest else c :: rest
  | [] => []

def skipBreaksFrom (inComment : Bool) : Text → Text
  | [] => []
  | c :: rest =>
    if c = '\n' then skipBreaksFrom false rest
    else if inComment then skipBreaksFrom true rest
    else if Text.isSpace c then skipBreaksFrom false rest
    else if c = '#' then skipBreaksFrom true rest
    else c :: rest

def skipBreaks (text : Text) : Text :=
  skipBreaksFrom false text

def afterWord? (word : String) (text : Text) : Option Text := do
  let rest ← Text.stripPrefix? word.toList text
  match rest with
  | [] => some []
  | c :: _ => if isDelimiter c then some rest else none

inductive Opening where
  | branch
  | choice
  | group
  | inner
  | loop (holds : Bool)
  | each
  deriving Repr, DecidableEq

def opening? (text : Text) : Option (Opening × Text) :=
  match text with
  | '(' :: rest => some (.inner, rest)
  | text =>
    let openings : List (String × Opening) :=
      [("if", .branch), ("case", .choice), ("\x7b", .group), ("while", .loop true),
       ("until", .loop false), ("for", .each)]
    openings.findSome? fun (word, opening) =>
      (afterWord? word text).map fun rest => (opening, rest)

def operations : List String :=
  [":-", "-", ":+", "+", ":=", "=", "##", "#", "%%", "%"]

def closers : List String :=
  ["then", "elif", "else", "fi", "esac", "\x7d", "do", "done"]

def ends (text : Text) : Bool :=
  match text with
  | [] | ')' :: _ | ';' :: ';' :: _ => true
  | text => closers.any fun word => (afterWord? word text).isSome

def assignment? (text : Text) : Option (Text × Text) := do
  let (name, rest) ← Text.span1? isNameChar text
  match name, rest with
  | c :: _, '=' :: rest => if c.isDigit then none else some (name, rest)
  | _, _ => none

def redirectSource (text : Text) : Option Nat × Text :=
  match text with
  | d :: '>' :: rest =>
    if d.isDigit then (some (d.toNat - '0'.toNat), '>' :: rest) else (none, text)
  | d :: '<' :: rest =>
    if d.isDigit then (some (d.toNat - '0'.toNat), '<' :: rest) else (none, text)
  | text => (none, text)

/-! ### Reading

Each reader takes an upper bound for its steps, and gives what it has read and
the text behind it. -/

mutual

def readWithin? : Nat → Text → Option (Script × Text)
  | 0, _ => none
  | fuel + 1, text => do
    let text := skipBreaks text
    if ends text then return (.skip, text)
    let (first, rest) ← readPipelineWithin? fuel text
    let (first, rest) ← readChainWithin? fuel first rest
    match skipBlanks rest with
    | ';' :: ';' :: rest => return (first, ';' :: ';' :: rest)
    | '&' :: rest =>
      let (second, rest) ← readWithin? fuel rest
      return (.next (.aside first) second, rest)
    | ';' :: rest | '\n' :: rest =>
      let (second, rest) ← readWithin? fuel rest
      return (.next first second, rest)
    | rest => return (first, rest)

def readChainWithin? : Nat → Script → Text → Option (Script × Text)
  | 0, _, _ => none
  | fuel + 1, first, text =>
    match skipBlanks text with
    | '&' :: '&' :: rest => do
      let (second, rest) ← readPipelineWithin? fuel (skipBreaks rest)
      readChainWithin? fuel (.andThen first second) rest
    | '|' :: '|' :: rest => do
      let (second, rest) ← readPipelineWithin? fuel (skipBreaks rest)
      readChainWithin? fuel (.orElse first second) rest
    | rest => some (first, rest)

def readPipelineWithin? : Nat → Text → Option (Script × Text)
  | 0, _ => none
  | fuel + 1, text =>
    match afterWord? "!" text with
    | some rest => do
      let (script, rest) ← readPipelineWithin? fuel (skipBlanks rest)
      return (.negate script, rest)
    | none => do
      let (first, rest) ← readCommandWithin? fuel text
      match skipBlanks rest with
      | '|' :: '|' :: rest => return (first, '|' :: '|' :: rest)
      | '|' :: rest =>
        let (second, rest) ← readPipelineWithin? fuel (skipBreaks rest)
        return (.pipe first second, rest)
      | rest => return (first, rest)

def readCommandWithin? : Nat → Text → Option (Script × Text)
  | 0, _ => none
  | fuel + 1, text =>
    match opening? text with
    | some (.branch, rest) => do
      let (script, rest) ← readBranchWithin? fuel rest
      readGroupEndWithin? fuel false script rest
    | some (.choice, rest) => do
      let (subject, rest) ← readWordWithin? fuel (skipBlanks rest)
      let rest ← afterWord? "in" (skipBreaks rest)
      let (arms, rest) ← readArmsWithin? fuel (skipBreaks rest)
      readGroupEndWithin? fuel false (.choice subject arms) rest
    | some (.group, rest) => do
      let (body, rest) ← readWithin? fuel rest
      readGroupEndWithin? fuel false body (← afterWord? "\x7d" rest)
    | some (.inner, rest) => do
      let (body, rest) ← readWithin? fuel rest
      readGroupEndWithin? fuel true body (← Text.stripPrefix? [')'] rest)
    | some (.loop holds, rest) => do
      let (condition, rest) ← readWithin? fuel rest
      let (body, rest) ← readBodyWithin? fuel rest
      readGroupEndWithin? fuel false (.loop holds condition body) rest
    | some (.each, rest) => do
      let (name, rest) ← Text.span1? isNameChar (skipBlanks rest)
      let (words, rest) ←
        match afterWord? "in" (skipBreaks rest) with
        | some rest =>
          (readItemsWithin? fuel rest).map fun (words, _, rest) => (words, rest)
        | none => some ([[.parameter ['@'] true]], rest)
      let (body, rest) ← readBodyWithin? fuel (skipBreaks ((skipBlanks rest).dropWhile (· == ';')))
      readGroupEndWithin? fuel false (.each name words body) rest
    | none => do
      let (assignments, rest) ← readAssignmentsWithin? fuel text
      let (words, redirects, rest) ← readItemsWithin? fuel rest
      if assignments.isEmpty && words.isEmpty && redirects.isEmpty then none
      else return (.simple (text.count '\n') assignments words redirects, rest)

def readBodyWithin? : Nat → Text → Option (Script × Text)
  | 0, _ => none
  | fuel + 1, text => do
    let (body, rest) ← readWithin? fuel (← afterWord? "do" text)
    return (body, ← afterWord? "done" rest)

def readGroupEndWithin? : Nat → Bool → Script → Text → Option (Script × Text)
  | 0, _, _, _ => none
  | fuel + 1, inner, body, text => do
    let (_, redirects, rest) ← readItemsWithin? fuel text
    return (.group inner body redirects, rest)

def readBranchWithin? : Nat → Text → Option (Script × Text)
  | 0, _ => none
  | fuel + 1, text => do
    let (condition, rest) ← readWithin? fuel text
    let (yes, rest) ← readWithin? fuel (← afterWord? "then" rest)
    match afterWord? "elif" rest, afterWord? "else" rest with
    | some rest, _ =>
      let (no, rest) ← readBranchWithin? fuel rest
      return (.branch condition yes no, rest)
    | none, some rest =>
      let (no, rest) ← readWithin? fuel rest
      return (.branch condition yes no, ← afterWord? "fi" rest)
    | none, none => return (.branch condition yes .skip, ← afterWord? "fi" rest)

def readArmsWithin? : Nat → Text → Option (List (List (List Part) × Script) × Text)
  | 0, _ => none
  | fuel + 1, text =>
    match afterWord? "esac" text with
    | some rest => some ([], rest)
    | none => do
      let text := (Text.stripPrefix? ['('] text).getD text
      let (patterns, rest) ← readPatternsWithin? fuel text
      let (body, rest) ← readWithin? fuel rest
      let rest := (Text.stripPrefix? [';', ';'] rest).getD rest
      let (arms, rest) ← readArmsWithin? fuel (skipBreaks rest)
      return ((patterns, body) :: arms, rest)

def readPatternsWithin? : Nat → Text → Option (List (List Part) × Text)
  | 0, _ => none
  | fuel + 1, text => do
    let (pattern, rest) ← readWordWithin? fuel (skipBlanks text)
    match skipBlanks rest with
    | '|' :: rest =>
      let (patterns, rest) ← readPatternsWithin? fuel rest
      return (pattern :: patterns, rest)
    | ')' :: rest => return ([pattern], rest)
    | _ => none

def readAssignmentsWithin? : Nat → Text → Option (List (Text × List Part) × Text)
  | 0, _ => none
  | fuel + 1, text =>
    match assignment? (skipBlanks text) with
    | none => some ([], text)
    | some (name, rest) => do
      let (value, rest) ←
        match rest with
        | [] => some ([], [])
        | c :: cs => if isDelimiter c then some ([], c :: cs) else readWordWithin? fuel rest
      let (assignments, rest) ← readAssignmentsWithin? fuel rest
      return ((name, value) :: assignments, rest)

def readItemsWithin? : Nat → Text → Option (List (List Part) × List Redirect × Text)
  | 0, _ => none
  | fuel + 1, text =>
    let text := skipBlanks text
    match redirectSource text with
    | (source, '>' :: '&' :: d :: rest) =>
      if d.isDigit then do
        let (words, redirects, rest) ← readItemsWithin? fuel rest
        return (words, .channel (source.getD 1) (d.toNat - '0'.toNat) :: redirects, rest)
      else none
    | (source, '>' :: rest) => do
      let appends := rest.head? == some '>'
      let rest := if appends then rest.tail else rest
      let (path, rest) ← readWordWithin? fuel (skipBlanks rest)
      let (words, redirects, rest) ← readItemsWithin? fuel rest
      return (words, .toFile (source.getD 1) appends path :: redirects, rest)
    | (_, '<' :: rest) => do
      let (path, rest) ← readWordWithin? fuel (skipBlanks rest)
      let (words, redirects, rest) ← readItemsWithin? fuel rest
      return (words, .fromFile path :: redirects, rest)
    | (_, []) => some ([], [], [])
    | (_, c :: rest) =>
      if isDelimiter c || c == '#' then some ([], [], c :: rest)
      else do
        let (word, rest) ← readWordWithin? fuel text
        let (words, redirects, rest) ← readItemsWithin? fuel rest
        return (word :: words, redirects, rest)

def readWordWithin? : Nat → Text → Option (List Part × Text)
  | 0, _ => none
  | fuel + 1, text => do
    let (part, rest) ← readPartWithin? fuel text
    match rest with
    | [] => return (part, [])
    | c :: _ =>
      if isDelimiter c then return (part, rest)
      else
        let (parts, rest) ← readWordWithin? fuel rest
        return (part ++ parts, rest)

def readPartWithin? : Nat → Text → Option (List Part × Text)
  | 0, _ => none
  | fuel + 1, text =>
    match text with
    | '\'' :: rest => do
      let (string, rest) ← Text.splitOnce? ['\''] rest
      return ([.plain string true], rest)
    | '"' :: rest => do
      let (parts, rest) ← readQuotedWithin? fuel rest
      return (.plain [] true :: parts, rest)
    | '\\' :: c :: rest => some ([.plain [c] true], rest)
    | '$' :: rest => do
      let (part, rest) ← readDollarWithin? fuel false rest
      return ([part], rest)
    | c :: rest => if isDelimiter c then none else some ([.plain [c] false], rest)
    | [] => none

def readQuotedWithin? : Nat → Text → Option (List Part × Text)
  | 0, _ => none
  | fuel + 1, text =>
    match text with
    | '"' :: rest => some ([], rest)
    | '\\' :: c :: rest => do
      let (parts, rest) ← readQuotedWithin? fuel rest
      let written := if ['$', '"', '\\', '\x60'].contains c then [c] else ['\\', c]
      return (.plain written true :: parts, rest)
    | '$' :: rest => do
      let (part, rest) ← readDollarWithin? fuel true rest
      let (parts, rest) ← readQuotedWithin? fuel rest
      return (part :: parts, rest)
    | c :: rest => do
      let (parts, rest) ← readQuotedWithin? fuel rest
      return (.plain [c] true :: parts, rest)
    | [] => none

def readBracedWithin? : Nat → Bool → Text → Option (List Part × Text)
  | 0, _, _ => none
  | fuel + 1, quoted, text =>
    match text with
    | '\x7d' :: rest => some ([], rest)
    | '\'' :: rest => do
      let (string, rest) ←
        if quoted then some (['\''], rest) else Text.splitOnce? ['\''] rest
      let (parts, rest) ← readBracedWithin? fuel quoted rest
      return (.plain string (!quoted) :: parts, rest)
    | '"' :: rest => do
      let (part, rest) ← readQuotedWithin? fuel rest
      let (parts, rest) ← readBracedWithin? fuel quoted rest
      return (.plain [] true :: part ++ parts, rest)
    | '\\' :: c :: rest => do
      let (parts, rest) ← readBracedWithin? fuel quoted rest
      return (.plain [c] true :: parts, rest)
    | '$' :: rest => do
      let (part, rest) ← readDollarWithin? fuel quoted rest
      let (parts, rest) ← readBracedWithin? fuel quoted rest
      return (part :: parts, rest)
    | c :: rest => do
      let (parts, rest) ← readBracedWithin? fuel quoted rest
      return (.plain [c] false :: parts, rest)
    | [] => none

def readDollarWithin? : Nat → Bool → Text → Option (Part × Text)
  | 0, _, _ => none
  | fuel + 1, quoted, text =>
    match text with
    | '(' :: rest => do
      let (script, rest) ← readWithin? fuel rest
      let rest ← Text.stripPrefix? [')'] rest
      return (.printed script quoted, rest)
    | '\x7b' :: '#' :: '\x7d' :: rest => some (.parameter ['#'] quoted, rest)
    | '\x7b' :: '#' :: rest => do
      let (name, rest) ← Text.span1? isNameChar rest
      return (.altered name ['#'] [] quoted, ← Text.stripPrefix? ['\x7d'] rest)
    | '\x7b' :: rest => do
      let (name, rest) ←
        match Text.span1? isNameChar rest, rest with
        | some found, _ => some found
        | none, c :: rest => if isSpecial c then some ([c], rest) else none
        | none, [] => none
      match rest with
      | '\x7d' :: rest => return (.parameter name quoted, rest)
      | rest =>
        let (operation, rest) ← operations.findSome? fun operation =>
          (Text.stripPrefix? operation.toList rest).map fun rest => (operation.toList, rest)
        let (word, rest) ← readBracedWithin? fuel quoted rest
        return (.altered name operation word quoted, rest)
    | c :: rest =>
      if isSpecial c then some (.parameter [c] quoted, rest)
      else
        match Text.span1? isNameChar text with
        | some (name, rest) => some (.parameter name quoted, rest)
        | none => some (.plain ['$'] quoted, text)
    | [] => some (.plain ['$'] quoted, [])

end

/-- Reads a whole script. No reader takes more than eight steps without reading
a character. -/
def parse? (text : Text) : Option Script := do
  let (script, rest) ← readWithin? (8 * text.length + 16) text
  if rest.isEmpty then some script else none

end Script
end DiagramSync.Command
