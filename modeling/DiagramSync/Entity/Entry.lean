import DiagramSync.Diagnostic
import DiagramSync.Document.Heading
import DiagramSync.Text.Lowercase

/-!
The entity section of a document and the entries it lists: top-level bullets
that begin with an emphasised name, such as

`- **User**: A registered account with an email.`

each with the indented lines below it.
-/

namespace DiagramSync

structure EntityEntry where
  name : String
  description : String
  /-- The description and the lines below it, from which attributes and
  relationships are read. -/
  body : Text
  span : Span
  deriving Repr, DecidableEq

namespace EntityEntry

/-! ### The section -/

def headsSection (heading : Heading) : Bool :=
  Text.contains "key entities".toList (Text.lowercase heading.title)

def sectionBody (level : Nat) (lines : List Line) : List Line :=
  lines.takeWhile fun line =>
    match Heading.ofLine? line with
    | some heading => level < heading.level
    | none => true

def section? : List Line → Option (List Line)
  | [] => none
  | line :: rest =>
    match Heading.ofLine? line with
    | some heading =>
      if headsSection heading then some (sectionBody heading.level rest) else section? rest
    | none => section? rest

/-! ### Bullets -/

def isBulletMark (c : Char) : Bool :=
  c == '-' || c == '*' || c == '+'

def isOuterBullet (text : Text) : Bool :=
  match text with
  | mark :: c :: _ => isBulletMark mark && Text.isSpace c
  | _ => false

/-- Reads text between two marks. It may not be empty, and the first mark that
follows ends it. -/
def between? (mark text : Text) : Option (Text × Text) :=
  match Text.stripPrefix? mark text with
  | some rest =>
    match Text.splitOnce? mark rest with
    | some ([], _) => none
    | found => found
  | none => none

def emphasisMarks : List String :=
  ["**", "__", "*", "_"]

def emphasized? (text : Text) : Option (Text × Text) :=
  emphasisMarks.findSome? fun mark => between? mark.toList text

def skipSeparator : Text → Text
  | c :: rest => if c == ':' || c == '-' || c == '–' || c == '—' then rest else c :: rest
  | [] => []

def bullet? (text : Text) : Option (Text × Text) :=
  match text with
  | mark :: rest =>
    if isBulletMark mark then do
      let (name, rest) ← emphasized? (← Text.skipSpaces1? rest)
      return (name, Text.skipSpaces (skipSeparator (Text.skipSpaces rest)))
    else
      none
  | [] => none

def bareName (raw : Text) : Text :=
  Text.trimEnd (Text.trimEndWhere (· == ':') (Text.trim raw))

def ofBullet? (line : Line) : Option EntityEntry :=
  match bullet? line.text with
  | some (raw, description) =>
    let name := bareName raw
    if name.isEmpty then
      none
    else
      some ⟨String.ofList name, String.ofList (Text.trim description), description, line.span⟩
  | none => none

def addLine (entry : EntityEntry) (text : Text) : EntityEntry :=
  { entry with body := entry.body ++ '\n' :: Text.trim text }

/-! ### Findings -/

def unnamed (line : Line) : Diagnostic where
  severity := .warning
  code := some .unnamedEntity
  message := "entity bullet has no emphasised name"
  labels := [⟨line.span, "skipped", true⟩]
  help := some "write the entity as `- **Name**: description`"

def duplicate (entry first : EntityEntry) : Diagnostic where
  severity := .warning
  code := some .duplicateEntity
  message := s!"entity `{entry.name}` is defined multiple times"
  labels :=
    [⟨entry.span, "duplicate definition", true⟩, ⟨first.span, "first defined here", false⟩]
  help := some "the later definition is ignored"

/-! ### Collection -/

def close (opened : Option EntityEntry) (closed : List EntityEntry)
    (next : List EntityEntry → Findings EntityEntry) : Findings EntityEntry :=
  match opened with
  | some entry =>
    match closed.find? fun known => known.name == entry.name with
    | some first => (next closed).warn (entry.duplicate first)
    | none => (next (closed ++ [entry])).cons entry
  | none => next closed

/-- Reads the lines of a section that are left, given the open entry and the
entries closed so far. A line that is neither a bullet nor indented ends an entry;
blank lines and code blocks are passed over. -/
def collect (opened : Option EntityEntry) (closed : List EntityEntry) :
    List Line → Findings EntityEntry
  | [] => close opened closed fun _ => .empty
  | line :: rest =>
    if line.fenced || line.isBlank then
      collect opened closed rest
    else if isOuterBullet line.text then
      close opened closed fun closed =>
        match ofBullet? line with
        | some entry => collect (some entry) closed rest
        | none => (collect none closed rest).warn (unnamed line)
    else if line.beginsIndented then
      collect (opened.map fun entry => entry.addLine line.text) closed rest
    else
      close opened closed fun closed => collect none closed rest

def ofSection (lines : List Line) : Findings EntityEntry :=
  collect none [] lines

end EntityEntry
end DiagramSync
