import DiagramSync.Toml.Quoted
import DiagramSync.Toml.Table
import DiagramSync.Toml.Word

/-!
TOML documents: the data of a text in TOML, if it is one.
-/

namespace DiagramSync.Toml

/-! ### Keys -/

def isBareChar (c : Char) : Bool :=
  c.isAlphanum || c == '_' || c == '-'

def key? (text : Text) : Option (String × Text) :=
  match text with
  | '"' :: _ | '\'' :: _ => (quotedLine? text).map fun (key, rest) => (String.ofList key, rest)
  | text => (Text.span1? isBareChar text).map fun (key, rest) => (String.ofList key, rest)

def keysWithin? : Nat → Text → Option (List String × String × Text)
  | 0, _ => none
  | fuel + 1, text => do
    let (key, rest) ← key? (Text.skipSpaces text)
    match Text.skipSpaces rest with
    | '.' :: rest =>
      let (path, last, rest) ← keysWithin? fuel rest
      return (key :: path, last, rest)
    | rest => return ([], key, rest)

def keyLimit : Nat :=
  80

def keys? (text : Text) : Option (List String × String × Text) :=
  keysWithin? keyLimit text

/-! ### Values -/

mutual

def valueWithin? : Nat → Nat → Text → Option (Tree × Text)
  | 0, _, _ => none
  | fuel + 1, depth, text =>
    match text, depth with
    | '[' :: rest, depth + 1 => do
      let (items, rest) ← itemsWithin? fuel depth (skipGap rest)
      return (.list items, rest)
    | '\x7b' :: rest, depth + 1 => do
      let (entries, rest) ← entriesWithin? fuel depth [] (skipGap rest)
      return (entries.toTree, rest)
    | '"' :: _, _ | '\'' :: _, _ => do
      let (string, rest) ← quoted? text
      return (.text (String.ofList string), rest)
    | text, _ => word? text

def itemsWithin? : Nat → Nat → Text → Option (List Tree × Text)
  | 0, _, _ => none
  | fuel + 1, depth, text =>
    match text with
    | ']' :: rest => some ([], rest)
    | text => do
      let (item, rest) ← valueWithin? fuel depth text
      match skipGap rest with
      | ',' :: rest =>
        let (items, rest) ← itemsWithin? fuel depth (skipGap rest)
        return (item :: items, rest)
      | ']' :: rest => return ([item], rest)
      | _ => none

/-- Reads the entries of an inline table that are left, and the brace that closes it.
Lines may end everywhere but around the dots of a key. -/
def entriesWithin? : Nat → Nat → Entries → Text → Option (Entries × Text)
  | 0, _, _, _ => none
  | fuel + 1, depth, entries, text =>
    match text with
    | '\x7d' :: rest => some (entries, rest)
    | text => do
      let (path, key, rest) ← keys? text
      let rest ← after? '=' (skipGap rest)
      let (value, rest) ← valueWithin? fuel depth (skipGap rest)
      let (_, entries) ← Entries.addAt path key value .declared entries
      match skipGap rest with
      | ',' :: rest => entriesWithin? fuel depth entries (skipGap rest)
      | '\x7d' :: rest => return (entries, rest)
      | _ => none

end

def nestingLimit : Nat :=
  80

/-- Reads a value. Two steps at most begin with the same character, so there is
always fuel left. -/
def value? (text : Text) : Option (Tree × Text) :=
  valueWithin? (2 * text.length + 2) nestingLimit text

/-! ### Statements -/

structure Reading where
  root : Entries
  current : List String

namespace Reading

def change (reading : Reading) (path : List String) (change : Entries.Change) : Option Entries :=
  (Entries.changeAt .implied change path .declared reading.root).map Prod.snd

def enter (reading : Reading) (next : Bool) (path : List String) (key : String) :
    Option Reading := do
  let declare := if next then Entries.declareNext key else Entries.declare key
  let root ← reading.change path declare
  return ⟨root, path ++ [key]⟩

def add (reading : Reading) (path : List String) (key : String) (value : Tree) :
    Option Reading := do
  let root ← reading.change reading.current (Entries.addAt path key value)
  return { reading with root }

def statement? (reading : Reading) (text : Text) : Option (Reading × Text) :=
  match text with
  | '[' :: '[' :: rest => do
    let (path, key, rest) ← keys? rest
    let rest ← Text.stripPrefix? [']', ']'] rest
    return (← reading.enter true path key, ← endStatement? rest)
  | '[' :: rest => do
    let (path, key, rest) ← keys? rest
    let rest ← after? ']' rest
    return (← reading.enter false path key, ← endStatement? rest)
  | text => do
    let (path, key, rest) ← keys? text
    let rest ← after? '=' rest
    let (value, rest) ← value? (Text.skipSpaces rest)
    return (← reading.add path key value, ← endStatement? rest)

def statementsWithin? : Nat → Reading → Text → Option Reading
  | 0, _, _ => none
  | fuel + 1, reading, text =>
    match skipGap text with
    | [] => some reading
    | text => do
      let (reading, rest) ← reading.statement? text
      statementsWithin? fuel reading rest

end Reading

def byteOrderMark : Char :=
  '\uFEFF'

def parse? (document : Text) : Option Tree :=
  let text := (Text.stripPrefix? [byteOrderMark] document).getD document
  (Reading.statementsWithin? (text.length + 1) ⟨[], []⟩ text).map fun reading =>
    reading.root.toTree

end DiagramSync.Toml
