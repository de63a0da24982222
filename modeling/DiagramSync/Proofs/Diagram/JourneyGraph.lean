import DiagramSync.Proofs.Diagram.Distinct
import DiagramSync.Proofs.Diagram.Drawing

/-!
The graph of a journey diagram, as its markup draws it: for each story a group whose nodes follow
each other through the scenarios, and no node that is defined twice. The limits change how the
graph is laid out and nothing else.
-/

namespace DiagramSync

open Markup DrawnLine

/-! ### What stands in a group -/

/-- What stands in the nodes of a scenario, in order. -/
def Scenario.contents (scenario : Scenario) : List (NodeShape × String) :=
  [(.box, "Given " ++ Label.escape scenario.precondition),
    (.decision, "When " ++ Label.escape scenario.trigger),
    (.terminal, "Then " ++ Label.escape scenario.outcome)]

/-- What stands in the nodes of a story, in order. -/
def Story.contents (story : Story) : List (NodeShape × String) :=
  if story.scenarios.isEmpty then [(.box, Label.escape story.title)]
  else story.scenarios.flatMap Scenario.contents

namespace DrawnGroup

/-- The identifiers that the group defines. -/
def ids (group : DrawnGroup) : List String :=
  group.nodes.map FlowNode.id

/-- The group is that of the story: it has the nodes of the story and no others, and each is
joined to the next one. -/
structure Shows (group : DrawnGroup) (story : Story) : Prop where
  label : group.label = "US" ++ toString story.number ++ ": " ++ Label.escape story.title ++ " (" ++
    story.priority.text ++ ")"
  nodes : group.nodes.map (fun node => (node.shape, node.label)) = story.contents
  edges : group.edges = group.ids.zip group.ids.tail
  edgeCount : group.edges.length = 3 * story.scenarios.length - 1

/-- The group with its nodes from top to bottom, or as they fall. -/
def laidOut (stacked : Bool) (group : DrawnGroup) : DrawnGroup :=
  { group with directions := if stacked then 1 else 0 }

end DrawnGroup

theorem FlowGroup.neighbours_eq_zip {α : Type} (list : List α) :
    neighbours list = list.zip list.tail := by
  induction list using neighbours.induct with
  | case1 first second rest ih =>
    rw [neighbours, ih]
    rfl
  | case2 list hshort =>
    cases list with
    | nil => rfl
    | cons first rest =>
      cases rest with
      | nil => rfl
      | cons second rest => exact absurd rfl (hshort first second rest)

theorem Scenario.length_contents (scenario : Scenario) : scenario.contents.length = 3 := rfl

theorem Story.length_contents (story : Story) : story.contents.length = Journey.nodesFor story := by
  rw [contents, Journey.nodesFor]
  cases story.scenarios with
  | nil => rfl
  | cons scenario rest =>
    have hsum : ((scenario :: rest).map fun scenario => scenario.contents.length).sum =
        (scenario :: rest).length * 3 := by
      simp [Scenario.length_contents, Nat.succ_mul, Nat.add_comm]
    rw [List.isEmpty_cons, if_neg Bool.false_ne_true, List.length_flatMap, hsum]

namespace Journey

/-! ### Nodes of a story -/

theorem contents_scenarioNodes (ordinal index : Nat) (scenarios : List Scenario) :
    (scenarioNodes ordinal index scenarios).map (fun node => (node.shape, node.label)) =
      scenarios.flatMap Scenario.contents := by
  induction scenarios generalizing index with
  | nil => rfl
  | cons scenario rest ih =>
    simp only [scenarioNodes, List.map_cons, ih, List.flatMap_cons, Scenario.contents,
      List.cons_append, List.nil_append]

theorem contents_storyNodes (ordinal : Nat) (story : Story) :
    (storyNodes ordinal story).map (fun node => (node.shape, node.label)) = story.contents := by
  rw [storyNodes, Story.contents]
  cases story.scenarios with
  | nil => rfl
  | cons scenario rest => exact contents_scenarioNodes ordinal 0 (scenario :: rest)

theorem ids_scenarioNodes (ordinal index : Nat) (scenarios : List Scenario) :
    (scenarioNodes ordinal index scenarios).map FlowNode.id =
      (List.range' index (scenarios.length * 3)).map (nodeId ordinal) := by
  induction scenarios generalizing index with
  | nil => simp [scenarioNodes]
  | cons scenario rest ih =>
    rw [List.length_cons, Nat.succ_mul, Nat.add_comm, List.range'_append_1.symm, List.map_append,
      ← ih]
    rfl

theorem ids_storyNodes (ordinal : Nat) (story : Story) :
    (storyNodes ordinal story).map FlowNode.id =
      (List.range (nodesFor story)).map (nodeId ordinal) := by
  rw [storyNodes, nodesFor, List.range_eq_range']
  cases story.scenarios with
  | nil => rfl
  | cons scenario rest => exact ids_scenarioNodes ordinal 0 (scenario :: rest)

theorem length_storyNodes (ordinal : Nat) (story : Story) :
    (storyNodes ordinal story).length = nodesFor story := by
  have hids := congrArg List.length (ids_storyNodes ordinal story)
  rwa [List.length_map, List.length_map, List.length_range] at hids

theorem shows_storyGroup (stacked : Bool) (ordinal : Nat) (story : Story) :
    ((storyGroup ordinal story).drawn stacked).Shows story where
  label := rfl
  nodes := contents_storyNodes ordinal story
  edges := FlowGroup.neighbours_eq_zip _
  edgeCount := by
    have hedges : ((storyGroup ordinal story).drawn stacked).edges.length =
        (storyNodes ordinal story).length - 1 := by
      simp [FlowGroup.drawn, FlowGroup.edges, FlowGroup.neighbours_eq_zip, storyGroup]
    rw [hedges, length_storyNodes, nodesFor]
    cases story.scenarios with
    | nil => rfl
    | cons scenario rest => simp only [Nat.mul_comm]

/-! ### Nodes of all stories -/

theorem nodeId_inj {ordinal ordinal' index index' : Nat}
    (h : nodeId ordinal index = nodeId ordinal' index') : ordinal = ordinal' ∧ index = index' := by
  have htexts := congrArg String.toList h
  simp only [nodeId, String.toList_append, List.append_assoc] at htexts
  obtain ⟨hordinal, hletters⟩ := Text.toString_append_inj htexts (by simp) (by simp)
  exact ⟨hordinal,
    Label.letters_injective (String.toList_injective (List.append_cancel_left hletters))⟩

theorem mem_ids_groups {ordinal : Nat} {stories : List Story} {id : String}
    (h : id ∈ (groups ordinal stories).flatMap fun group => group.nodes.map FlowNode.id) :
    ∃ place index, ordinal ≤ place ∧ id = nodeId place index := by
  induction stories generalizing ordinal with
  | nil => contradiction
  | cons story rest ih =>
    rw [groups, List.flatMap_cons, List.mem_append] at h
    obtain h | h := h
    · rw [storyGroup, ids_storyNodes] at h
      obtain ⟨index, -, rfl⟩ := List.mem_map.mp h
      exact ⟨ordinal, index, le_rfl, rfl⟩
    · obtain ⟨place, index, hplace, hid⟩ := ih h
      exact ⟨place, index, Nat.le_of_succ_le hplace, hid⟩

theorem nodup_ids_groups (ordinal : Nat) (stories : List Story) :
    ((groups ordinal stories).flatMap fun group => group.nodes.map FlowNode.id).Nodup := by
  induction stories generalizing ordinal with
  | nil => exact List.nodup_nil
  | cons story rest ih =>
    rw [groups, List.flatMap_cons]
    refine List.Nodup.append ?_ (ih _) fun id hid hrest => ?_
    · rw [storyGroup, ids_storyNodes]
      exact List.nodup_range.map fun _ _ h => (nodeId_inj h).2
    · rw [storyGroup, ids_storyNodes] at hid
      obtain ⟨index, -, rfl⟩ := List.mem_map.mp hid
      obtain ⟨place, index', hplace, hid⟩ := mem_ids_groups hrest
      rw [(nodeId_inj hid).1] at hplace
      exact absurd hplace (Nat.not_succ_le_self _)

theorem length_nodes_groups (ordinal : Nat) (stories : List Story) :
    ((groups ordinal stories).flatMap FlowGroup.nodes).length = nodeCount stories := by
  induction stories generalizing ordinal with
  | nil => rfl
  | cons story rest ih =>
    rw [groups, List.flatMap_cons, List.length_append, ih, storyGroup, length_storyNodes]
    rfl

/-! ### Graphs -/

/-- The groups are those of the stories, in order; no node is defined twice, and no edge leaves
its group. -/
structure Graph (groups : List DrawnGroup) (stories : List Story) : Prop where
  shows : List.Forall₂ DrawnGroup.Shows groups stories
  nodup : (groups.flatMap DrawnGroup.ids).Nodup
  within : ∀ edge ∈ groups.flatMap DrawnGroup.edges, ∀ group ∈ groups,
    edge.1 ∈ group.ids ↔ edge.2 ∈ group.ids

theorem eq_of_mem_ids {groups : List DrawnGroup} (hnodup : (groups.flatMap DrawnGroup.ids).Nodup)
    {group other : DrawnGroup} (hgroup : group ∈ groups) (hother : other ∈ groups) {id : String}
    (hid : id ∈ group.ids) (hid' : id ∈ other.ids) : group = other := by
  by_contra hne
  have hsymm : Std.Symm (Function.onFun List.Disjoint DrawnGroup.ids) :=
    ⟨fun _ _ => List.Disjoint.symm⟩
  exact (List.nodup_flatMap.mp hnodup).2.forall hgroup hother hne hid hid'

theorem forall₂_shows (stacked : Bool) (ordinal : Nat) (stories : List Story) :
    List.Forall₂ DrawnGroup.Shows ((groups ordinal stories).map (FlowGroup.drawn stacked))
      stories := by
  induction stories generalizing ordinal with
  | nil => exact .nil
  | cons story rest ih => exact .cons (shows_storyGroup stacked ordinal story) (ih _)

theorem graph_groups (stacked : Bool) (stories : List Story) :
    Graph ((groups 1 stories).map (FlowGroup.drawn stacked)) stories := by
  have hnodup : (((groups 1 stories).map (FlowGroup.drawn stacked)).flatMap
      DrawnGroup.ids).Nodup := by
    rw [List.flatMap_map]
    exact nodup_ids_groups 1 stories
  refine ⟨forall₂_shows stacked 1 stories, hnodup, fun edge hedge group hgroup => ?_⟩
  obtain ⟨source, hsource, hedge⟩ := List.mem_flatMap.mp hedge
  obtain ⟨flow, hflow, rfl⟩ := List.mem_map.mp hsource
  have hends : edge.1 ∈ (flow.drawn stacked).ids ∧ edge.2 ∈ (flow.drawn stacked).ids :=
    FlowGroup.mem_of_mem_neighbours hedge
  constructor
  · intro hid
    rw [eq_of_mem_ids hnodup hgroup hsource hid hends.1]
    exact hends.2
  · intro hid
    rw [eq_of_mem_ids hnodup hgroup hsource hid hends.2]
    exact hends.1

/-! ### Lines -/

/-- Lays out blocks of lines: where the chart is stacked, a line that asks for it stands behind the
first one of each block. -/
def layOut (stacked : Bool) (blocks : List (String × List String)) : List String :=
  (if stacked then "flowchart LR" else "flowchart TD") ::
    blocks.flatMap fun (first, others) =>
      first :: ((if stacked then ["        direction TB"] else []) ++ others)

/-- The lines of a group without the one that depends on the layout. -/
theorem exists_block {group : FlowGroup} (h : group.Drawn) :
    ∃ first others, "        direction TB" ∉ first :: others ∧ ∀ stacked, group.lines stacked =
      first :: ((if stacked then ["        direction TB"] else []) ++ others) := by
  have hne : ∀ {line : String} {drawn : DrawnLine}, ofText? line.toList = some drawn →
      drawn ≠ .direction → "        direction TB" ≠ line := by
    rintro line drawn hline hdrawn rfl
    have hdirection : ofText? "        direction TB".toList = some .direction := by decide
    rw [hdirection] at hline
    exact hdrawn (Option.some.inj hline).symm
  refine ⟨"    subgraph " ++ group.id ++ "[\"" ++ group.label ++ "\"]",
    (group.nodes.map fun node => "        " ++ node.line) ++
      ((group.edges.map fun edge => "        " ++ edge.1 ++ " --> " ++ edge.2) ++ ["    end"]),
    ?_, fun stacked => ?_⟩
  · simp only [List.mem_cons, List.mem_append, List.mem_map, List.not_mem_nil, or_false]
    rintro (heq | ⟨node, hnode, heq⟩ | ⟨edge, hedge, heq⟩ | heq)
    · exact hne h.ofText?_title (by simp) heq
    · exact hne (FlowGroup.Drawn.ofText?_node (h.nodes node hnode)) (by simp) heq.symm
    · exact hne (h.ofText?_edge hedge) (by simp) heq.symm
    · exact absurd heq (by decide)
  · simp only [FlowGroup.lines, List.append_assoc, List.cons_append, List.nil_append]

theorem exists_blocks {groups : List FlowGroup} (h : ∀ group ∈ groups, group.Drawn) :
    ∃ blocks : List (String × List String), blocks.length = groups.length ∧
      (∀ block ∈ blocks, "        direction TB" ∉ block.1 :: block.2) ∧
      ∀ stacked, (Flowchart.mk stacked groups).lines = layOut stacked blocks := by
  induction groups with
  | nil => exact ⟨[], rfl, List.forall_mem_nil _, fun _ => rfl⟩
  | cons group rest ih =>
    rw [List.forall_mem_cons] at h
    obtain ⟨first, others, hfree, hlines⟩ := exists_block h.1
    obtain ⟨blocks, hlength, hblocks, hrest⟩ := ih h.2
    refine ⟨(first, others) :: blocks, by rw [List.length_cons, hlength, List.length_cons],
      List.forall_mem_cons.mpr ⟨hfree, hblocks⟩, fun stacked => ?_⟩
    have htail := List.tail_eq_of_cons_eq (hrest stacked)
    simp only [Flowchart.lines, layOut, List.flatMap_cons, hlines] at htail ⊢
    rw [htail]

/-- The markup draws the graph of the stories, of as many nodes as are counted. The limits decide
about its layout and about a warning: beyond the soft one the groups stand side by side and have
their nodes from top to bottom. -/
theorem graph_render (stories : List Story) :
    ∃ (groups : List DrawnGroup) (blocks : List (String × List String)),
      Graph groups stories ∧ blocks.length = groups.length ∧
      (∀ block ∈ blocks, "        direction TB" ∉ block.1 :: block.2) ∧
      ∀ limits : Limits,
        let count := (groups.flatMap DrawnGroup.nodes).length
        let stacked := decide (limits.soft < count)
        render limits stories =
            { kind := .journey
              markup := String.join ((layOut stacked blocks).map fun line => line ++ "\n")
              nodeCount := count
              verdict := ⟨[], if limits.hard < count then [tooLarge count limits.hard] else []⟩ } ∧
          Drawing.ofMarkup? (render limits stories).markup =
            some ⟨stacked, groups.map (DrawnGroup.laidOut stacked)⟩ := by
  have hdrawn : ∀ group ∈ groups 1 stories, group.Drawn := drawn_groups
  obtain ⟨blocks, hlength, hfree, hlines⟩ := exists_blocks hdrawn
  have hcount : (((groups 1 stories).map (FlowGroup.drawn false)).flatMap
      DrawnGroup.nodes).length = nodeCount stories := by
    rw [List.flatMap_map]
    exact length_nodes_groups 1 stories
  refine ⟨(groups 1 stories).map (FlowGroup.drawn false), blocks, graph_groups false stories,
    by rw [hlength, List.length_map], hfree, fun limits => ⟨?_, ?_⟩⟩
  · rw [hcount, ← hlines]
    rfl
  · rw [hcount, List.map_map]
    exact Flowchart.ofMarkup?_render clean_groups hdrawn

end Journey
end DiagramSync
