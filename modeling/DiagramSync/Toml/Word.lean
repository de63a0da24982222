import DiagramSync.Toml.Number

/-!
Words of TOML: truth values, numbers, dates and times.
-/

namespace DiagramSync.Toml

def isWordChar (c : Char) : Bool :=
  let ends : List Char := ['=', ',', '[', ']', '\x7b', '\x7d', '#', ' ', '\t', '\r', '\n']
  !ends.contains c

def wordValue? (word : Text) : Option Tree :=
  if word == "true".toList then some (.flag true)
  else if word == "false".toList then some (.flag false)
  else if isMoment word then some (.moment (String.ofList word))
  else number? word

/-- The word that the text begins with, and the rest. A time behind a date and
one space is part of the word. -/
def splitWord (text : Text) : Text × Text :=
  let word := text.takeWhile isWordChar
  match text.dropWhile isWordChar with
  | ' ' :: c :: rest =>
    if isDate word && c.isDigit then
      (word ++ ' ' :: (c :: rest).takeWhile isWordChar, (c :: rest).dropWhile isWordChar)
    else (word, ' ' :: c :: rest)
  | rest => (word, rest)

def word? (text : Text) : Option (Tree × Text) :=
  let (word, rest) := splitWord text
  (wordValue? word).map fun value => (value, rest)

end DiagramSync.Toml
