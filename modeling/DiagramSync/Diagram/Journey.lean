import DiagramSync.Diagram.Basic
import DiagramSync.Diagram.Label
import DiagramSync.Story.Basic

/-!
Journey diagrams: a flowchart with one group of nodes per user story.

A scenario contributes a node for its precondition, one for its trigger and one
for its outcome; the scenarios of a story follow each other. A story without
scenarios is one node with its title.
-/

namespace DiagramSync

inductive NodeShape where
  | box
  | decision
  | terminal
  deriving Repr, DecidableEq

structure FlowNode where
  id : String
  shape : NodeShape
  label : String
  deriving Repr, DecidableEq

namespace FlowNode

def line (node : FlowNode) : String :=
  match node.shape with
  | .box => node.id ++ "[\"" ++ node.label ++ "\"]"
  | .decision => node.id ++ "\x7b\"" ++ node.label ++ "\"\x7d"
  | .terminal => node.id ++ "([\"" ++ node.label ++ "\"])"

end FlowNode

structure FlowGroup where
  id : String
  label : String
  nodes : List FlowNode
  deriving Repr, DecidableEq

namespace FlowGroup

def neighbours {α : Type} : List α → List (α × α)
  | first :: second :: rest => (first, second) :: neighbours (second :: rest)
  | _ => []

def edges (group : FlowGroup) : List (String × String) :=
  neighbours (group.nodes.map FlowNode.id)

/-- The lines of the group. `stacked` groups lay their nodes out from top to bottom. -/
def lines (stacked : Bool) (group : FlowGroup) : List String :=
  ["    subgraph " ++ group.id ++ "[\"" ++ group.label ++ "\"]"] ++
    (if stacked then ["        direction TB"] else []) ++
    (group.nodes.map fun node => "        " ++ node.line) ++
    (group.edges.map fun (source, target) => "        " ++ source ++ " --> " ++ target) ++
    ["    end"]

end FlowGroup

/-- A flowchart of groups. `stacked` charts put the groups side by side. -/
structure Flowchart where
  stacked : Bool
  groups : List FlowGroup
  deriving Repr, DecidableEq

namespace Flowchart

def nodes (chart : Flowchart) : List FlowNode :=
  chart.groups.flatMap FlowGroup.nodes

def lines (chart : Flowchart) : List String :=
  (if chart.stacked then "flowchart LR" else "flowchart TD") ::
    chart.groups.flatMap (FlowGroup.lines chart.stacked)

def render (chart : Flowchart) : String :=
  String.join (chart.lines.map fun line => line ++ "\n")

end Flowchart

namespace Journey

def nodeId (ordinal index : Nat) : String :=
  toString ordinal ++ "_" ++ Label.letters index

def scenarioNodes (ordinal index : Nat) : List Scenario → List FlowNode
  | [] => []
  | scenario :: rest =>
    ⟨nodeId ordinal index, .box, "Given " ++ Label.escape scenario.precondition⟩ ::
      ⟨nodeId ordinal (index + 1), .decision, "When " ++ Label.escape scenario.trigger⟩ ::
      ⟨nodeId ordinal (index + 2), .terminal, "Then " ++ Label.escape scenario.outcome⟩ ::
      scenarioNodes ordinal (index + 3) rest

def storyNodes (ordinal : Nat) (story : Story) : List FlowNode :=
  match story.scenarios with
  | [] => [⟨nodeId ordinal 0, .box, Label.escape story.title⟩]
  | scenarios => scenarioNodes ordinal 0 scenarios

def storyGroup (ordinal : Nat) (story : Story) : FlowGroup where
  id := "story_" ++ toString ordinal
  label :=
    "US" ++ toString story.number ++ ": " ++ Label.escape story.title ++ " (" ++
      story.priority.text ++ ")"
  nodes := storyNodes ordinal story

def groups (ordinal : Nat) : List Story → List FlowGroup
  | [] => []
  | story :: rest => storyGroup ordinal story :: groups (ordinal + 1) rest

def nodesFor (story : Story) : Nat :=
  match story.scenarios with
  | [] => 1
  | scenarios => scenarios.length * 3

def nodeCount (stories : List Story) : Nat :=
  stories.foldr (fun story count => nodesFor story + count) 0

def chart (limits : Limits) (stories : List Story) : Flowchart where
  stacked := limits.soft < nodeCount stories
  groups := groups 1 stories

def tooLarge (count limit : Nat) : String :=
  s!"journey diagram has {count} nodes (limit {limit}); " ++
    "consider splitting the feature into smaller specifications"

def render (limits : Limits) (stories : List Story) : Diagram where
  kind := .journey
  markup := (chart limits stories).render
  nodeCount := nodeCount stories
  verdict :=
    .ofWarnings
      (if limits.hard < nodeCount stories then [tooLarge (nodeCount stories) limits.hard] else [])

def diagram? (limits : Limits) (stories : List Story) : Option Diagram :=
  if stories.isEmpty then none else some (render limits stories)

end Journey
end DiagramSync
