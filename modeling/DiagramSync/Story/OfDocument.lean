import DiagramSync.Diagnostic
import DiagramSync.Document.Heading
import DiagramSync.Story.Heading
import DiagramSync.Story.ScenarioItem

/-!
The user stories of a document.

A story begins at a heading that is a story heading. It takes the scenario lines
below it, up to the next story heading, a heading that announces a story without
being one, or any heading that is not deeper than its own. Reading never fails:
what has the wrong shape is skipped with a warning.
-/

namespace DiagramSync
namespace Story

/-! ### Findings -/

def malformedHeader (line : Line) : Diagnostic where
  severity := .warning
  code := some .malformedStoryHeader
  message := "malformed user story header"
  labels := [⟨line.span, "skipped", true⟩]
  help := some "expected `User Story <N> - <Title> (Priority: P<1-4>)`"

def malformedScenario (number : Nat) (line : Line) : Diagnostic where
  severity := .warning
  code := some .malformedScenario
  message := s!"malformed acceptance scenario in user story {number}"
  labels := [⟨line.span, "skipped", true⟩]
  help := some "expected `<n>. Given <context>, When <action>, Then <outcome>`"

def withoutScenarios (story : Story) : Diagnostic where
  severity := .warning
  code := some .storyWithoutScenarios
  message := s!"user story {story.number} has no acceptance scenarios"
  labels := [⟨story.span, "story header", true⟩]
  help := some "the story is drawn as a single title node"

def outOfSequence (number : Nat) (line : Line) : Diagnostic where
  severity := .warning
  code := some .storyOutOfSequence
  message := s!"user story {number} is out of sequence"
  labels := [⟨line.span, "story header", true⟩]
  help := some "story numbers are kept as written"

/-! ### Stories -/

structure Open where
  story : Story
  level : Nat
  deriving Repr

def close (opened : Option Open) (rest : Findings Story) : Findings Story :=
  match opened with
  | some ⟨story, _⟩ =>
    if story.hasScenarios then rest.cons story
    else (rest.cons story).warn story.withoutScenarios
  | none => rest

def ofHeader (header : StoryHeading) (line : Line) : Story where
  number := header.number
  title := header.title
  priority := header.priority
  scenarios := []
  span := line.span

def sequenceWarning? (last : Option Nat) (number : Nat) (line : Line) : Option Diagnostic :=
  match last with
  | some previous => if number ≤ previous then some (outOfSequence number line) else none
  | none => none

/-- Reads the lines that are left, given the open story and the number of the
last story heading. -/
def collect (opened : Option Open) (last : Option Nat) : List Line → Findings Story
  | [] => close opened .empty
  | line :: rest =>
    if line.fenced then
      collect opened last rest
    else
      match Heading.ofLine? line with
      | some heading =>
        match StoryHeading.parse? heading.title with
        | some header =>
          close opened
            ((collect (some ⟨ofHeader header line, heading.level⟩) (some header.number) rest).warn?
              (sequenceWarning? last header.number line))
        | none =>
          if StoryHeading.announces heading.title then
            close opened ((collect none last rest).warn (malformedHeader line))
          else
            match opened with
            | some ⟨_, level⟩ =>
              if heading.level ≤ level then close opened (collect none last rest)
              else collect opened last rest
            | none => collect none last rest
      | none =>
        match opened with
        | some ⟨story, level⟩ =>
          match ScenarioItem.read line.text with
          | .scenario scenario => collect (some ⟨story.addScenario scenario, level⟩) last rest
          | .malformed => (collect opened last rest).warn (malformedScenario story.number line)
          | .unrelated => collect opened last rest
        | none => collect none last rest

def ofDocument (document : Text) : Findings Story :=
  collect none none (Line.scan document)

end Story
end DiagramSync
