import DiagramSync.Toml.Basic

/-!
Quoted strings of TOML. Each function reads behind the opening quotes and gives
the string and the text behind the closing ones.
-/

namespace DiagramSync.Toml

/-! ### Escapes -/

def letterEscape? : Char → Option Char
  | 'b' => some '\x08'
  | 't' => some '\t'
  | 'n' => some '\n'
  | 'f' => some '\x0c'
  | 'r' => some '\r'
  | 'e' => some '\x1b'
  | '"' => some '"'
  | '\\' => some '\\'
  | _ => none

def codeEscape? (digits : List Char) : Option Char := do
  let values ← digits.mapM hexDigit?
  let code := values.foldl (fun code digit => code * 16 + digit) 0
  if code.isValidChar then some (Char.ofNat code) else none

def put (c : Char) (rest : Option (Text × Text)) : Option (Text × Text) :=
  rest.map fun (string, rest) => (c :: string, rest)

/-! ### Strings on one line -/

def basicString? : Text → Option (Text × Text)
  | [] => none
  | '"' :: rest => some ([], rest)
  | '\\' :: 'x' :: a :: b :: rest => do put (← codeEscape? [a, b]) (basicString? rest)
  | '\\' :: 'u' :: a :: b :: c :: d :: rest => do
    put (← codeEscape? [a, b, c, d]) (basicString? rest)
  | '\\' :: 'U' :: a :: b :: c :: d :: e :: f :: g :: h :: rest => do
    put (← codeEscape? [a, b, c, d, e, f, g, h]) (basicString? rest)
  | '\\' :: c :: rest => do put (← letterEscape? c) (basicString? rest)
  | c :: rest => if isControl c || c == '\\' then none else put c (basicString? rest)

def literalString? : Text → Option (Text × Text)
  | [] => none
  | '\'' :: rest => some ([], rest)
  | c :: rest => if isControl c then none else put c (literalString? rest)

/-! ### Strings on several lines -/

/-- The quotes that belong to a string although they stand with the three that
close it, and the text behind all of them. -/
def closing (quote : Char) : Text → Text × Text
  | first :: second :: rest =>
    if first = quote then
      if second = quote then ([quote, quote], rest) else ([quote], second :: rest)
    else ([], first :: second :: rest)
  | [first] => if first = quote then ([quote], []) else ([], [first])
  | [] => ([], [])

def endsLine (text : Text) : Bool :=
  (lineEnd? (Text.skipSpaces text)).isSome

/-- Reads a string between three double quotes. A backslash that ends a line
makes `trimming` hold until the next character that is not white space. -/
def basicLines? (trimming : Bool) : Text → Option (Text × Text)
  | [] => none
  | '"' :: '"' :: '"' :: rest => some (closing '"' rest)
  | '\r' :: '\n' :: rest =>
    if trimming then basicLines? true rest else put '\r' (put '\n' (basicLines? false rest))
  | '\\' :: 'x' :: a :: b :: rest => do put (← codeEscape? [a, b]) (basicLines? false rest)
  | '\\' :: 'u' :: a :: b :: c :: d :: rest => do
    put (← codeEscape? [a, b, c, d]) (basicLines? false rest)
  | '\\' :: 'U' :: a :: b :: c :: d :: e :: f :: g :: h :: rest => do
    put (← codeEscape? [a, b, c, d, e, f, g, h]) (basicLines? false rest)
  | '\\' :: c :: rest =>
    if endsLine (c :: rest) then basicLines? true (c :: rest)
    else do put (← letterEscape? c) (basicLines? false rest)
  | c :: rest =>
    if trimming && (Text.isSpace c || c == '\n') then basicLines? true rest
    else if (isControl c && c != '\n') || c == '\\' then none
    else put c (basicLines? false rest)

def literalLines? : Text → Option (Text × Text)
  | [] => none
  | '\'' :: '\'' :: '\'' :: rest => some (closing '\'' rest)
  | '\r' :: '\n' :: rest => put '\r' (put '\n' (literalLines? rest))
  | c :: rest => if isControl c && c != '\n' then none else put c (literalLines? rest)

def skipFirstLineEnd (text : Text) : Text :=
  (lineEnd? text).getD text

/-! ### Strings with their opening quotes -/

def quotedLine? : Text → Option (Text × Text)
  | '"' :: rest => basicString? rest
  | '\'' :: rest => literalString? rest
  | _ => none

def quoted? : Text → Option (Text × Text)
  | '"' :: '"' :: '"' :: rest => basicLines? false (skipFirstLineEnd rest)
  | '\'' :: '\'' :: '\'' :: rest => literalLines? (skipFirstLineEnd rest)
  | text => quotedLine? text

end DiagramSync.Toml
