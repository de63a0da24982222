import DiagramSync.Story.Basic

/-!
Story headings, such as `User Story 1 - Browse the catalog (Priority: P1)`.
-/

namespace DiagramSync

structure StoryHeading where
  number : Nat
  title : String
  priority : Priority
  deriving Repr, DecidableEq

namespace StoryHeading

/-- Story numbers fit into 32 bits: they are less than this. -/
def numberBound : Nat := 4294967296

def number? (text : Text) : Option (Nat × Text) := do
  let (digits, rest) ← Text.span1? Char.isDigit text
  let number := Nat.ofDigitChars 10 digits 0
  if number < numberBound then return (number, rest) else none

def separator? : Text → Option Text
  | c :: rest => if c == '-' || c == '–' || c == '—' || c == ':' then some rest else none
  | [] => none

def words? (text : Text) : Option Text := do
  let rest ← Text.skipSpaces1? (← Text.stripPrefixNoCase? "user".toList text)
  Text.skipSpaces1? (← Text.stripPrefixNoCase? "story".toList rest)

def opening? (text : Text) : Option (Nat × Text) := do
  let (number, rest) ← number? (← words? text)
  let rest ← separator? (Text.skipSpaces rest)
  return (number, Text.skipSpaces rest)

def opensTag (text : Text) : Bool :=
  (Text.stripPrefixNoCase? "(priority".toList text).isSome

def level? : Char → Option Priority
  | '1' => some .p1
  | '2' => some .p2
  | '3' => some .p3
  | '4' => some .p4
  | _ => none

def tag? (text : Text) : Option Priority := do
  let rest ← Text.stripPrefix? ['('] text
  let rest ← Text.stripPrefixNoCase? "priority".toList (Text.skipSpaces rest)
  let rest ← Text.stripPrefix? [':'] (Text.skipSpaces rest)
  match ← Text.stripPrefixNoCase? ['p'] (Text.skipSpaces rest) with
  | digit :: rest =>
    let priority ← level? digit
    let _ ← Text.stripPrefix? [')'] (Text.skipSpaces rest)
    return priority
  | [] => none

/-- Reads a heading's title as a story heading. The story's title runs up to the
last place where a priority tag may begin, so it may hold parentheses itself. -/
def parse? (text : Text) : Option StoryHeading := do
  let (number, rest) ← opening? text
  let (title, tag) ← Text.splitAtLast? opensTag rest
  let title := Text.trim title
  if title.isEmpty then
    none
  else
    return ⟨number, String.ofList title, ← tag? tag⟩

def announces (text : Text) : Bool :=
  Text.equalsNoCase (text.take 10) "user story".toList

end StoryHeading
end DiagramSync
