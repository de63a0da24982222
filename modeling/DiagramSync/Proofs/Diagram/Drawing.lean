import DiagramSync.Proofs.Check.Flowchart
import DiagramSync.Proofs.Text.Search

/-!
What the markup of a flowchart draws. The markup is read line by line, without regard to what it
was rendered from; a line that is none of a flowchart's makes it unreadable. Main statement: the
markup of a chart of groups draws these groups, with their nodes and edges in order.
-/

namespace DiagramSync

open Text Markup FlowchartCheck

/-- A group as its markup draws it. Nodes and edges are the lines that define them. -/
structure DrawnGroup where
  id : String
  label : String
  /-- The number of lines that lay the nodes out from top to bottom. -/
  directions : Nat
  nodes : List FlowNode
  edges : List (String × String)
  deriving Repr, DecidableEq

/-- What the markup of a flowchart draws, and whether it puts the groups side by side. -/
structure Drawing where
  stacked : Bool
  groups : List DrawnGroup
  deriving Repr, DecidableEq

/-! ### Reading lines -/

/-- A line of a flowchart behind its declaration. -/
inductive DrawnLine where
  | opening (id label : String)
  | direction
  | node (node : FlowNode)
  | edge (source target : String)
  | closing
  deriving Repr, DecidableEq

namespace DrawnLine

/-- Reads an identifier with a label behind it, in the brackets of a shape. -/
def labelled? (shape : NodeShape) (statement : Text) : Option (String × String) := do
  let (id, rest) ← span1? isNodeIdChar statement
  let rest ← stripPrefix? (shape.opening ++ ['"']) rest
  let label ← stripSuffix? ('"' :: shape.closing) rest
  if '"' ∈ label then none else return (String.ofList id, String.ofList label)

def node? (statement : Text) : Option FlowNode :=
  [NodeShape.box, .decision, .terminal].findSome? fun shape =>
    (labelled? shape statement).map fun (id, label) => ⟨id, shape, label⟩

def edge? (statement : Text) : Option (String × String) := do
  let (source, rest) ← span1? isNodeIdChar statement
  let rest ← stripPrefix? " --> ".toList rest
  let (target, rest) ← span1? isNodeIdChar rest
  if rest.isEmpty then return (String.ofList source, String.ofList target) else none

def ofText? (text : Text) : Option DrawnLine :=
  let statement := trim text
  if statement = "end".toList then some .closing
  else if statement = "direction TB".toList then some .direction
  else
    match stripPrefix? "subgraph ".toList statement with
    | some title => (labelled? .box title).map fun (id, label) => .opening id label
    | none =>
      match edge? statement with
      | some (source, target) => some (.edge source target)
      | none => (node? statement).map .node

end DrawnLine

/-! ### Reading charts -/

namespace DrawnGroup

/-- The group with what a line inside of it draws. -/
def extend? (group : DrawnGroup) : DrawnLine → Option DrawnGroup
  | .direction => some { group with directions := group.directions + 1 }
  | .node node => some { group with nodes := group.nodes ++ [node] }
  | .edge source target => some { group with edges := group.edges ++ [(source, target)] }
  | .opening .. => none
  | .closing => none

end DrawnGroup

namespace Drawing

/-- Reads the groups of the lines that are left, given the group that is open. -/
def groups? (opened : Option DrawnGroup) : List Text → Option (List DrawnGroup)
  | [] => if opened.isNone then some [] else none
  | text :: rest =>
    match opened, DrawnLine.ofText? text with
    | none, some (.opening id label) => groups? (some ⟨id, label, 0, [], []⟩) rest
    | some group, some .closing => (groups? none rest).map (group :: ·)
    | some group, some line =>
      match group.extend? line with
      | some group => groups? (some group) rest
      | none => none
    | _, _ => none

/-- Reads the line that begins a flowchart: whether it puts the groups side by side. -/
def stacked? (line : Text) : Option Bool :=
  if line = "flowchart LR".toList then some true
  else if line = "flowchart TD".toList then some false
  else none

/-- Reads what the markup of a flowchart draws. -/
def ofMarkup? (markup : String) : Option Drawing :=
  match Text.lines markup.toList with
  | [] => none
  | first :: rest => do
    let stacked ← stacked? first
    let groups ← groups? none rest
    return ⟨stacked, groups⟩

end Drawing

/-! ### Rendered lines -/

namespace DrawnLine

variable {id label : Text}

theorem span1?_around (shape : NodeShape) (hid : IsNodeId id) (label : Text) :
    span1? isNodeIdChar (shape.around id label) =
      some (id, shape.opening ++ '"' :: (label ++ '"' :: shape.closing)) := by
  refine span1?_append hid.1 hid.2 ?_
  cases shape <;> simp [NodeShape.opening] <;> decide

theorem labelled?_around (shape : NodeShape) (hid : IsNodeId id) (hlabel : '"' ∉ label) :
    labelled? shape (shape.around id label) = some (String.ofList id, String.ofList label) := by
  have hopening : stripPrefix? (shape.opening ++ ['"'])
      (shape.opening ++ '"' :: (label ++ '"' :: shape.closing)) =
        some (label ++ '"' :: shape.closing) :=
    stripPrefix?_eq_some_iff.mpr (by simp)
  have hclosing : stripSuffix? ('"' :: shape.closing) (label ++ '"' :: shape.closing) =
      some label :=
    stripSuffix?_eq_some_iff.mpr rfl
  simp [labelled?, span1?_around shape hid, hopening, hclosing, hlabel]

theorem labelled?_around_of_ne {shape shape' : NodeShape} (hne : shape' ≠ shape)
    (hid : IsNodeId id) : labelled? shape' (shape.around id label) = none := by
  have hopening : stripPrefix? (shape'.opening ++ ['"'])
      (shape.opening ++ '"' :: (label ++ '"' :: shape.closing)) = none := by
    cases shape <;> cases shape' <;> first | contradiction | rfl
  simp [labelled?, span1?_around shape hid, hopening]

theorem node?_around (shape : NodeShape) (hid : IsNodeId id) (hlabel : '"' ∉ label) :
    node? (shape.around id label) = some ⟨String.ofList id, shape, String.ofList label⟩ := by
  have hnone : ∀ shape', shape' ≠ shape → labelled? shape' (shape.around id label) = none :=
    fun shape' hne => labelled?_around_of_ne hne hid
  have hsome := labelled?_around shape hid hlabel
  cases shape <;> simp_all [node?]

theorem edge?_around (shape : NodeShape) (hid : IsNodeId id) :
    edge? (shape.around id label) = none := by
  have harrow : stripPrefix? " --> ".toList
      (shape.opening ++ '"' :: (label ++ '"' :: shape.closing)) = none := by
    cases shape <;> rfl
  rw [edge?, span1?_around shape hid]
  simp only [Option.bind_eq_bind, Option.bind_some, harrow, Option.bind_none]

theorem edge?_append {source target : Text} (hsource : IsNodeId source)
    (htarget : IsNodeId target) :
    edge? (source ++ (" --> ".toList ++ target)) =
      some (String.ofList source, String.ofList target) := by
  have hhead : ∀ c ∈ (" --> ".toList ++ target).head?, isNodeIdChar c = false := by
    simp
    decide
  rw [edge?, span1?_append hsource.1 hsource.2 hhead]
  simp only [Option.bind_eq_bind, Option.bind_some, stripPrefix?_append,
    span1?_of_forall htarget.1 htarget.2]
  rfl

theorem ofText?_of_digit {text : Text} (hdigit : ∀ c ∈ (trim text).head?, c.isDigit = true) :
    ofText? text =
      match edge? (trim text) with
      | some (source, target) => some (.edge source target)
      | none => (node? (trim text)).map .node := by
  have hne : ∀ word : Text, (∀ d ∈ word.head?, d.isDigit = false) → ∀ rest, word ≠ [] →
      trim text ≠ word ++ rest := by
    rintro word hword rest hne heq
    rw [heq, List.head?_append_of_ne_nil _ hne] at hdigit
    obtain ⟨d, others, rfl⟩ := List.exists_cons_of_ne_nil hne
    have hd := hdigit d rfl
    rw [hword d rfl] at hd
    contradiction
  have htitle : stripPrefix? "subgraph ".toList (trim text) = none := by
    rw [stripPrefix?_eq_none_iff]
    rintro ⟨title, htitle⟩
    exact hne "subgraph ".toList (by decide) title (by decide) htitle.symm
  have hend := hne "end".toList (by decide) [] (by decide)
  have hdirection := hne "direction TB".toList (by decide) [] (by decide)
  rw [List.append_nil] at hend hdirection
  rw [ofText?, if_neg hend, if_neg hdirection, htitle]

end DrawnLine

namespace FlowGroup

/-- What the lines of the group draw. -/
def drawn (stacked : Bool) (group : FlowGroup) : DrawnGroup where
  id := group.id
  label := group.label
  directions := if stacked then 1 else 0
  nodes := group.nodes
  edges := group.edges

namespace Drawn

open DrawnLine

variable {group : FlowGroup}

theorem ofText?_title (h : group.Drawn) :
    ofText? ("    subgraph " ++ group.id ++ "[\"" ++ group.label ++ "\"]").toList =
      some (.opening group.id group.label) := by
  have hline : ("    subgraph " ++ group.id ++ "[\"" ++ group.label ++ "\"]").toList =
      indent ++ ("subgraph".toList ++ ' ' ::
        NodeShape.box.around group.id.toList group.label.toList) := by
    simp [indent, NodeShape.around, NodeShape.opening, NodeShape.closing]
  have htrim : trim (indent ++ ("subgraph".toList ++ ' ' ::
      NodeShape.box.around group.id.toList group.label.toList)) =
        "subgraph ".toList ++ NodeShape.box.around group.id.toList group.label.toList := by
    rw [NodeShape.around_eq, ← List.cons_append,
      trim_between isWhite_of_mem_indent (by decide) _ NodeShape.box.isWord_closing]
    simp
  rw [hline, ofText?, htrim, if_neg (by simp), if_neg (by simp), stripPrefix?_append]
  simp [labelled?_around .box h.id h.label]

theorem ofText?_node {node : FlowNode} (h : node.Drawn) :
    ofText? ("        " ++ node.line).toList = some (.node node) := by
  have hline : ("        " ++ node.line).toList =
      indent ++ indent ++ node.shape.around node.id.toList node.label.toList := by
    rw [String.toList_append, node.toList_line]
    rfl
  have htrim : trim (indent ++ indent ++ node.shape.around node.id.toList node.label.toList) =
      node.shape.around node.id.toList node.label.toList :=
    node.shape.trim_around h.id (by decide)
  rw [hline, ofText?_of_digit, htrim, edge?_around _ h.id, node?_around _ h.id h.label]
  · simp
  · rw [htrim, NodeShape.around, List.head?_append_of_ne_nil _ h.id.1]
    exact h.digit

theorem ofText?_edge (h : group.Drawn) {edge : String × String} (hedge : edge ∈ group.edges) :
    ofText? ("        " ++ edge.1 ++ " --> " ++ edge.2).toList =
      some (.edge edge.1 edge.2) := by
  obtain ⟨⟨hsource, hdigit⟩, htarget, -⟩ := h.ids_of_mem_edges hedge
  have hline : ("        " ++ edge.1 ++ " --> " ++ edge.2).toList =
      indent ++ indent ++ (edge.1.toList ++ (" --> ".toList ++ edge.2.toList)) := by
    simp [indent]
  have htrim := trim_between (by decide : ∀ c ∈ indent ++ indent, isWhite c = true)
    (isWord_of_isId hsource.isId) " --> ".toList (isWord_of_isId htarget.isId)
  rw [hline, ofText?_of_digit, htrim, edge?_append hsource htarget]
  · simp
  · rw [htrim, List.head?_append_of_ne_nil _ hsource.1]
    exact hdigit

end Drawn
end FlowGroup

/-! ### Rendered charts -/

namespace Drawing

open DrawnLine

theorem groups?_extend {text : Text} {line : DrawnLine} (hline : ofText? text = some line)
    {opened group : DrawnGroup} (hgroup : opened.extend? line = some group) (rest : List Text) :
    groups? (some opened) (text :: rest) = groups? (some group) rest := by
  cases line with
  | opening id label => contradiction
  | closing => contradiction
  | direction => simp only [groups?, hline, hgroup]
  | node node => simp only [groups?, hline, hgroup]
  | edge source target => simp only [groups?, hline, hgroup]

theorem groups?_opening {text : Text} {id label : String}
    (hline : ofText? text = some (.opening id label)) (rest : List Text) :
    groups? none (text :: rest) = groups? (some ⟨id, label, 0, [], []⟩) rest := by
  simp only [groups?, hline]

theorem groups?_closing {text : Text} (hline : ofText? text = some .closing)
    (opened : DrawnGroup) (rest : List Text) :
    groups? (some opened) (text :: rest) = (groups? none rest).map (opened :: ·) := by
  simp only [groups?, hline]

theorem groups?_nodes {nodes : List FlowNode} (h : ∀ node ∈ nodes, node.Drawn)
    (opened : DrawnGroup) (rest : List Text) :
    groups? (some opened) ((nodes.map fun node => ("        " ++ node.line).toList) ++ rest) =
      groups? (some { opened with nodes := opened.nodes ++ nodes }) rest := by
  induction nodes generalizing opened with
  | nil => rw [List.map_nil, List.nil_append, List.append_nil]
  | cons node others ih =>
    rw [List.forall_mem_cons] at h
    rw [List.map_cons, List.cons_append, groups?_extend (FlowGroup.Drawn.ofText?_node h.1) rfl,
      ih h.2]
    simp only [List.append_assoc, List.singleton_append]

theorem groups?_edges {edges : List (String × String)}
    (h : ∀ edge ∈ edges, ofText? ("        " ++ edge.1 ++ " --> " ++ edge.2).toList =
      some (.edge edge.1 edge.2)) (opened : DrawnGroup) (rest : List Text) :
    groups? (some opened)
        ((edges.map fun edge => ("        " ++ edge.1 ++ " --> " ++ edge.2).toList) ++ rest) =
      groups? (some { opened with edges := opened.edges ++ edges }) rest := by
  induction edges generalizing opened with
  | nil => rw [List.map_nil, List.nil_append, List.append_nil]
  | cons edge others ih =>
    rw [List.forall_mem_cons] at h
    rw [List.map_cons, List.cons_append, groups?_extend h.1 rfl, ih h.2]
    simp only [List.append_assoc, List.singleton_append]

theorem groups?_directions (stacked : Bool) (opened : DrawnGroup) (rest : List Text) :
    groups? (some opened)
        ((if stacked then ["        direction TB"] else []).map String.toList ++ rest) =
      groups? (some { opened with
        directions := opened.directions + if stacked then 1 else 0 }) rest := by
  cases stacked with
  | false => rfl
  | true =>
    have hline : ofText? "        direction TB".toList = some .direction := by decide
    exact groups?_extend hline rfl rest

theorem groups?_lines {group : FlowGroup} (h : group.Drawn) (stacked : Bool) (rest : List Text) :
    groups? none ((group.lines stacked).map String.toList ++ rest) =
      (groups? none rest).map (group.drawn stacked :: ·) := by
  have hend : ofText? "    end".toList = some .closing := by decide
  have hnodes : (group.nodes.map fun node => "        " ++ node.line).map String.toList =
      group.nodes.map fun node => ("        " ++ node.line).toList := List.map_map
  have hedges : (group.edges.map fun edge => "        " ++ edge.1 ++ " --> " ++ edge.2).map
      String.toList = group.edges.map fun edge =>
        ("        " ++ edge.1 ++ " --> " ++ edge.2).toList := List.map_map
  simp only [FlowGroup.lines, List.map_append, List.map_cons, List.map_nil, List.cons_append,
    List.nil_append, List.append_assoc, hnodes, hedges]
  rw [groups?_opening h.ofText?_title, groups?_directions, groups?_nodes h.nodes,
    groups?_edges fun edge hedge => h.ofText?_edge hedge, groups?_closing hend]
  simp only [List.nil_append, Nat.zero_add, FlowGroup.drawn]

theorem groups?_flatMap {groups : List FlowGroup} (h : ∀ group ∈ groups, group.Drawn)
    (stacked : Bool) :
    groups? none ((groups.flatMap (FlowGroup.lines stacked)).map String.toList) =
      some (groups.map (FlowGroup.drawn stacked)) := by
  induction groups with
  | nil => rfl
  | cons group others ih =>
    rw [List.forall_mem_cons] at h
    rw [List.flatMap_cons, List.map_append, groups?_lines h.1, ih h.2]
    rfl

end Drawing

namespace Flowchart

/-- What the markup of the chart draws. -/
def drawing (chart : Flowchart) : Drawing :=
  ⟨chart.stacked, chart.groups.map (FlowGroup.drawn chart.stacked)⟩

theorem lines_render {chart : Flowchart} (h : ∀ group ∈ chart.groups, group.Clean) :
    Text.lines chart.render.toList = chart.lines.map String.toList :=
  Diagram.lines_join_lines fun _ hline => (plainLine h hline).unbroken

theorem ofMarkup?_render {chart : Flowchart} (hclean : ∀ group ∈ chart.groups, group.Clean)
    (hdrawn : ∀ group ∈ chart.groups, group.Drawn) :
    Drawing.ofMarkup? chart.render = some chart.drawing := by
  have hstacked : Drawing.stacked?
      (if chart.stacked then "flowchart LR" else "flowchart TD").toList = some chart.stacked := by
    cases chart.stacked <;> decide
  rw [Drawing.ofMarkup?, lines_render hclean, lines, List.map_cons]
  simp only [hstacked, Drawing.groups?_flatMap hdrawn]
  rfl

end Flowchart
end DiagramSync
