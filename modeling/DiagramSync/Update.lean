import DiagramSync.Config.Basic
import DiagramSync.Document.Heading
import DiagramSync.Region.OfDocument
import DiagramSync.Text.Lowercase

/-!
Updating a document so that the region of each diagram holds its markup.
-/

namespace DiagramSync

inductive RegionOutcome where
  | inserted
  | replaced
  | unchanged
  deriving Repr, DecidableEq

namespace RegionOutcome

def text : RegionOutcome → String
  | .inserted => "inserted"
  | .replaced => "replaced"
  | .unchanged => "unchanged"

end RegionOutcome

inductive Edit where
  | replace (range : Span) (text : Text)
  /-- Puts `block` in front of the byte at `offset`, set off by blank lines. -/
  | insert (offset : Nat) (block : Text)
  deriving Repr, DecidableEq

namespace Edit

def offset : Edit → Nat
  | .replace range _ => range.start
  | .insert offset _ => offset

end Edit

namespace Update

/-! ### Blocks -/

def fenceMark : Text :=
  ['\x60', '\x60', '\x60']

def endLine (text : Text) : Text :=
  if Text.endsWith ['\n'] text then text else text ++ ['\n']

def codeBlock (markup : String) : Text :=
  fenceMark ++ "mermaid\n".toList ++ endLine markup.toList ++ fenceMark ++ ['\n']

def markerLine (side : Side) (name : String) : Text :=
  (Marker.mk side name).render.toList ++ ['\n']

def regionBlock (name : String) (block : Text) : Text :=
  markerLine .begins name ++ block ++ markerLine .ends name

/-! ### The place of a new region -/

def regionAt? (regions : List Region) (offset : Nat) : Option Region :=
  regions.find? fun region => region.contains offset

def freeHeadings (document : Text) (regions : List Region) : List PlacedHeading :=
  (Heading.all document).filter fun heading =>
    (regionAt? regions heading.line.start).isNone

/-- The first heading whose title holds the anchor's text, in any letter case,
and the headings behind it. -/
def anchored? (anchor : Anchor) : List PlacedHeading → Option (PlacedHeading × List PlacedHeading)
  | [] => none
  | heading :: rest =>
    if Text.contains (Text.lowercase anchor.heading.toList) (Text.lowercase heading.heading.title)
    then some (heading, rest)
    else anchored? anchor rest

def sectionEnd (documentSize : Nat) (level : Nat) (rest : List PlacedHeading) : Nat :=
  match rest.find? fun next => next.heading.level ≤ level with
  | some next => next.line.start
  | none => documentSize

def anchorOffset (document : Text) (regions : List Region) (anchor : Anchor) : Nat :=
  match anchored? anchor (freeHeadings document regions) with
  | some (heading, rest) =>
    match anchor.placement with
    | .afterHeading => heading.line.stop
    | .endOfSection => sectionEnd (Text.size document) heading.heading.level rest
  | none => Text.size document

/-- Where a new region goes: the place that its anchor asks for, or the
beginning of the region that holds it. -/
def newRegionOffset (document : Text) (regions : List Region) (anchor : Anchor) : Nat :=
  let offset := anchorOffset document regions anchor
  match regionAt? regions offset with
  | some region => region.range.start
  | none => offset

/-! ### Edits -/

/-- The text in the place of a region's content. It begins a line of its own and,
where the region has no end marker, brings one along. -/
def replacement (document : Text) (region : Region) (block : Text) : Text :=
  (if Text.endsWith ['\n'] (Text.takeBytes region.contentRange.start document) then [] else ['\n'])
    ++ block ++ (if region.terminated then [] else markerLine .ends region.name)

def holds (region : Region) (block : Text) : Bool :=
  region.terminated && region.content.toList == block

def plan (document : Text) (regions : List Region) (anchor : Anchor) (diagram : Diagram) :
    RegionOutcome × Option Edit :=
  let name := diagram.kind.name
  let block := codeBlock diagram.markup
  match Region.named? regions name with
  | some region =>
    if holds region block then (.unchanged, none)
    else (.replaced, some (.replace region.contentRange (replacement document region block)))
  | none =>
    (.inserted, some (.insert (newRegionOffset document regions anchor) (regionBlock name block)))

def separator (written : Text) : Text :=
  if Text.endsWith ['\n'] written then
    if Text.endsWith ['\n', '\n'] written then [] else ['\n']
  else if written.isEmpty then []
  else ['\n', '\n']

/-- Carries the edits out in their order, given what is written so far and where
in the document it ends. -/
def carryOut (document written : Text) (cursor : Nat) : List Edit → Text
  | [] => written ++ Text.dropBytes cursor document
  | .replace range text :: rest =>
    carryOut document (written ++ Text.slice cursor range.start document ++ text) range.stop rest
  | .insert offset block :: rest =>
    let written := written ++ Text.slice cursor offset document
    let gap := if offset < Text.size document then ['\n'] else []
    carryOut document (written ++ separator written ++ block ++ gap) offset rest

/-- The document after the edits, which are carried out by place; edits at one
place keep their order. -/
def apply (document : Text) (edits : List Edit) : Text :=
  carryOut document [] 0 (edits.mergeSort fun first second => first.offset ≤ second.offset)

end Update

structure Update where
  text : Text
  outcomes : List (Kind × RegionOutcome)
  deriving Repr, DecidableEq

namespace Update

def outcome? (update : Update) (kind : Kind) : Option RegionOutcome :=
  update.outcomes.lookup kind

def ofDiagrams (document : Text) (regions : List Region) (anchor : Kind → Anchor)
    (diagrams : List Diagram) : Update :=
  let plans := diagrams.map fun diagram =>
    (diagram.kind, plan document regions (anchor diagram.kind) diagram)
  { text := apply document (plans.filterMap fun (_, _, edit) => edit)
    outcomes := plans.map fun (kind, outcome, _) => (kind, outcome) }

end Update
end DiagramSync
