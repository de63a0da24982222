import DiagramSync.Diagram.Basic
import DiagramSync.Text.Basic

/-!
Settings: how large diagrams may grow, where their regions go, and the command
that validates their markup.
-/

namespace DiagramSync

inductive Placement where
  /-- In front of the next heading that is not deeper. -/
  | endOfSection
  | afterHeading
  deriving Repr, DecidableEq

structure Anchor where
  /-- The heading is the first one that holds this text, in any letter case. -/
  heading : String
  placement : Placement
  deriving Repr, DecidableEq

structure Validation where
  command : Option String
  args : List String
  timeoutMs : Nat
  deriving Repr, DecidableEq

structure Config where
  journey : Limits
  relationship : Limits
  journeyAnchor : Anchor
  relationshipAnchor : Anchor
  validation : Validation
  deriving Repr, DecidableEq

namespace Config

def standard : Config where
  journey := ⟨20, 30⟩
  relationship := ⟨10, 15⟩
  journeyAnchor := ⟨"User Scenarios", .endOfSection⟩
  relationshipAnchor := ⟨"Key Entities", .endOfSection⟩
  validation := ⟨none, [], 5000⟩

def anchor (config : Config) : Kind → Anchor
  | .journey => config.journeyAnchor
  | .entityRelationship => config.relationshipAnchor

inductive Flaw where
  | zeroLimit (table : String)
  | invertedLimits (table : String) (limits : Limits)
  | emptyHeading (anchor : String)
  | zeroTimeout
  deriving Repr, DecidableEq

namespace Flaw

def message : Flaw → String
  | .zeroLimit name => s!"{name}: limits must be greater than zero"
  | .invertedLimits name limits =>
    s!"{name}: soft limit ({limits.soft}) exceeds hard limit ({limits.hard})"
  | .emptyHeading anchor => s!"anchors.{anchor}: heading must not be empty"
  | .zeroTimeout => "validation.timeout_ms must be greater than zero"

end Flaw

def limitFlaw? (name : String) (limits : Limits) : Option Flaw :=
  if limits.soft = 0 ∨ limits.hard = 0 then some (.zeroLimit name)
  else if limits.hard < limits.soft then some (.invertedLimits name limits)
  else none

def anchorFlaw? (name : String) (anchor : Anchor) : Option Flaw :=
  if (Text.trim anchor.heading.toList).isEmpty then some (.emptyHeading name) else none

def flaw? (config : Config) : Option Flaw :=
  limitFlaw? "journey" config.journey
    <|> limitFlaw? "relationship" config.relationship
    <|> anchorFlaw? "journey" config.journeyAnchor
    <|> anchorFlaw? "entity_relationship" config.relationshipAnchor
    <|> (if config.validation.timeoutMs = 0 then some .zeroTimeout else none)

theorem flaw?_standard : standard.flaw? = none := by
  decide

end Config
end DiagramSync
