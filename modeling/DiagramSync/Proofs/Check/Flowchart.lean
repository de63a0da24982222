import DiagramSync.Diagram.Journey
import DiagramSync.Proofs.Check.Delimiters
import DiagramSync.Proofs.Diagram.Plain

/-!
The statements of flowcharts, as they are rendered, have no fault. A label cannot be seen: it
stands between quotes and holds none.
-/

namespace DiagramSync

open Text Markup

namespace FlowchartCheck

/-! ### References -/

/-- The text is not empty and made of characters of identifiers of nodes. -/
def IsNodeId (id : Text) : Prop :=
  id ≠ [] ∧ ∀ c ∈ id, isNodeIdChar c = true

instance (id : Text) : Decidable (IsNodeId id) :=
  inferInstanceAs (Decidable (_ ∧ _))

theorem IsNodeId.isId {id : Text} (h : IsNodeId id) : Label.IsId id := by
  refine ⟨h.1, fun c hc => ?_⟩
  have hchar := h.2 c hc
  rw [isNodeIdChar] at hchar
  rw [Label.isIdChar, hchar]
  rfl

theorem IsNodeId.not_mem {id : Text} (h : IsNodeId id) {c : Char} (hc : isNodeIdChar c = false) :
    c ∉ id := by
  intro hmem
  simp [h.2 c hmem] at hc

theorem IsNodeId.balanced {id : Text} (h : IsNodeId id) : Delimiters.Balanced id :=
  .plain fun c hc => Delimiters.isDelimiter_eq_false (by decide) (h.2 c hc)

theorem opensLabel_of_isNodeIdChar {c : Char} (hc : isNodeIdChar c = true) :
    opensLabel c = false := by
  have hne : ∀ d : Char, isNodeIdChar d = false → c ≠ d := by
    rintro d hd rfl
    simp [hc] at hd
  simp only [opensLabel, Bool.or_eq_false_iff, beq_eq_false_iff_ne]
  exact ⟨⟨⟨hne _ (by decide), hne _ (by decide)⟩, hne _ (by decide)⟩, hne _ (by decide)⟩

theorem idPart_append {id tail : Text} (hid : IsNodeId id)
    (htail : ∀ c ∈ tail.head?, opensLabel c = true) : idPart (id ++ tail) = id := by
  have htake : (id ++ tail).takeWhile (fun c => !opensLabel c) = id := by
    have hkeep : ∀ c ∈ id, (!opensLabel c) = true := fun c hc => by
      rw [opensLabel_of_isNodeIdChar (hid.2 c hc)]
      rfl
    rw [List.takeWhile_append_of_pos hkeep]
    cases tail with
    | nil => simp
    | cons c rest =>
      rw [List.takeWhile_cons_of_neg (by simpa using htail), List.append_nil]
  have hcolons : splitOnce? [':', ':', ':'] id = none :=
    splitOnce?_of_not_mem (hid.not_mem (by decide))
  simp [idPart, htake, hcolons, (isWord_of_isId hid.isId).trim_eq]

/-- A reference is in order if it begins with an identifier and ends there or goes on with a
label. -/
theorem nodeFaults_eq_nil {reference id tail : Text} (htrim : trim reference = id ++ tail)
    (hid : IsNodeId id) (htail : ∀ c ∈ tail.head?, opensLabel c = true) (line : Nat) :
    nodeFaults line reference = [] := by
  obtain ⟨c, rest, hcons⟩ := List.exists_cons_of_ne_nil hid.1
  have hbar : c ≠ '|' := by
    rintro rfl
    exact hid.not_mem (by decide) (hcons ▸ List.mem_cons_self)
  rw [nodeFaults, htrim]
  split
  · rename_i heq
    rw [hcons] at heq
    exact absurd (List.cons.inj heq).1 hbar
  · rw [idPart_append hid htail, idFaults, if_neg (by simp [hid.1]), if_pos]
    exact List.all_eq_true.mpr hid.2

/-! ### Quotes -/

theorem hideQuoted_append {before : Text} (h : '"' ∉ before) (after : Text) :
    hideQuoted false (before ++ after) = before ++ hideQuoted false after := by
  induction before with
  | nil => rfl
  | cons c rest ih =>
    obtain ⟨hc, hrest⟩ : '"' ≠ c ∧ '"' ∉ rest := by simpa using h
    simp [hideQuoted, Ne.symm hc, ih hrest]

theorem hideQuoted_of_not_mem {text : Text} (h : '"' ∉ text) : hideQuoted false text = text := by
  simpa [hideQuoted] using hideQuoted_append h []

theorem hideQuoted_label {label : Text} (h : '"' ∉ label) (after : Text) :
    hideQuoted false ('"' :: (label ++ '"' :: after)) =
      '"' :: (label.map (fun _ => 'x') ++ '"' :: hideQuoted false after) := by
  have hinside : ∀ label : Text, '"' ∉ label →
      hideQuoted true (label ++ '"' :: after) =
        label.map (fun _ => 'x') ++ '"' :: hideQuoted false after := by
    intro label h
    induction label with
    | nil => rfl
    | cons c rest ih =>
      obtain ⟨hc, hrest⟩ : '"' ≠ c ∧ '"' ∉ rest := by simpa using h
      simp [hideQuoted, Ne.symm hc, ih hrest]
  simp [hideQuoted, hinside label h]

/-! ### Arrows -/

theorem references_of_not_mem {statement : Text} (hdash : '-' ∉ hideQuoted false statement)
    (hequals : '=' ∉ hideQuoted false statement) (hcut : cut ∉ hideQuoted false statement) :
    references statement = [hideQuoted false statement] := by
  simp only [references, arrows, List.foldl_cons, List.foldl_nil, String.reduceToList,
    replaceAll_of_not_mem hdash, replaceAll_of_not_mem hequals]
  refine List.splitOnP_eq_singleton fun c hc => ?_
  rw [beq_eq_false_iff_ne]
  rintro rfl
  exact hcut hc

theorem references_edge {source target : Text} (hsource : IsNodeId source)
    (htarget : IsNodeId target) :
    references (source ++ ' ' :: '-' :: '-' :: '>' :: ' ' :: target) =
      [source ++ [' '], ' ' :: target] := by
  have hfree : ∀ c ∈ ['-', '=', cut], c ∉ source ++ [' '] ∧ c ∉ ' ' :: target := by
    intro c hc
    have hchar : isNodeIdChar c = false ∧ c ≠ ' ' := by
      simp only [List.mem_cons, List.not_mem_nil, or_false] at hc
      obtain rfl | rfl | rfl := hc <;> decide
    simp [hsource.not_mem hchar.1, htarget.not_mem hchar.1, hchar.2]
  simp only [List.forall_mem_cons] at hfree
  obtain ⟨hdash, hequals, hcut, -⟩ := hfree
  have hquote : hideQuoted false (source ++ ' ' :: '-' :: '-' :: '>' :: ' ' :: target) =
      (source ++ [' ']) ++ '-' :: '-' :: '>' :: ' ' :: target := by
    rw [hideQuoted_of_not_mem]
    · simp
    · simp [hsource.not_mem (by decide : isNodeIdChar '"' = false),
        htarget.not_mem (by decide : isNodeIdChar '"' = false)]
  -- The dotted arrow is not there, the plain one is, and then no dash is left.
  have hdotted : replaceAll ['-', '.', '-', '>'] [cut]
      ((source ++ [' ']) ++ '-' :: '-' :: '>' :: ' ' :: target) =
        (source ++ [' ']) ++ '-' :: '-' :: '>' :: ' ' :: target := by
    rw [replaceAll_append hdash.1]
    simp [replaceAll, replaceAll_of_not_mem hdash.2]
  have hplain : replaceAll ['-', '-', '>'] [cut]
      ((source ++ [' ']) ++ '-' :: '-' :: '>' :: ' ' :: target) =
        (source ++ [' ']) ++ cut :: ' ' :: target := by
    rw [replaceAll_append hdash.1]
    simp [replaceAll, replaceAll_of_not_mem hdash.2]
  have hrest : ∀ c, c ∉ source ++ [' '] ∧ c ∉ ' ' :: target → c ≠ cut →
      c ∉ (source ++ [' ']) ++ cut :: ' ' :: target := by
    rintro c ⟨hfront, hback⟩ hc
    rw [List.mem_append, List.mem_cons]
    exact not_or.mpr ⟨hfront, not_or.mpr ⟨hc, hback⟩⟩
  have hsplit : ∀ text : Text, cut ∉ text → ∀ c ∈ text, (c == cut) = false := by
    rintro text htext c hc
    rw [beq_eq_false_iff_ne]
    rintro rfl
    exact htext hc
  simp only [references, arrows, List.foldl_cons, List.foldl_nil, String.reduceToList, hquote,
    hdotted, hplain, replaceAll_of_not_mem (hrest '-' hdash (by decide)),
    replaceAll_of_not_mem (hrest '=' hequals (by decide))]
  rw [List.splitOnP_append_cons_of_forall_mem (hsplit _ hcut.1) cut (by simp),
    List.splitOnP_eq_singleton (hsplit _ hcut.2)]

/-! ### Statements -/

theorem Statement.read_of_digit {text : Text} (htext : trim text ≠ [])
    (hdigit : ∀ c ∈ (trim text).head?, c.isDigit = true) :
    Statement.read text = .nodes (references (trim text)) := by
  obtain ⟨c, rest, htrim⟩ := List.exists_cons_of_ne_nil htext
  have hc : c.isDigit = true := hdigit c (by rw [htrim]; rfl)
  have hne : ∀ d : Char, d.isDigit = false → c ≠ d := by
    rintro d hd rfl
    simp [hc] at hd
  have hwhite : isWhite c = false := by
    apply Label.isWhite_of_isIdChar
    simp [Label.isIdChar, isAsciiAlphanum, Char.isAlphanum, hc]
  have htitle : groupTitle? (c :: rest) = none := by
    have hnone : stripPrefix? "subgraph".toList (c :: rest) = none := by
      rw [show "subgraph".toList = 's' :: "ubgraph".toList from rfl, stripPrefix?,
        if_neg (hne 's' (by decide)).symm]
    rw [groupTitle?, hnone]
  have hdirective : isDirective (c :: rest) = false := by
    obtain ⟨word, others, hwords⟩ := exists_words_cons hwhite rest
    rw [isDirective, hwords]
    have hne' := fun d hd => (hne d hd).symm
    simp [directives, hne' 'd', hne' 'c', hne' 's', hne' 'l']
  rw [Statement.read, htrim, if_neg, htitle, hdirective]
  · rfl
  · intro heq
    exact hne 'e' (by decide) (List.cons.inj heq).1

theorem Statement.read_of_title {text title : Text}
    (htrim : trim text = "subgraph".toList ++ ' ' :: title) :
    Statement.read text = .groupBegin (' ' :: title) := by
  have htitle : groupTitle? ("subgraph".toList ++ ' ' :: title) = some (' ' :: title) := by
    rw [groupTitle?, stripPrefix?_append]
    rfl
  rw [Statement.read, htrim, htitle, if_neg]
  intro heq
  exact absurd (List.cons.inj heq).1 (by decide)

/-! ### Lines -/

variable {depth : Nat}

theorem leads_groupBegin {line title : Text} (hread : Statement.read line = .groupBegin title)
    (htitle : ∀ number, nodeFaults number (hideQuoted false title) = []) :
    Leads lineFaults depth (depth + 1) [line] := by
  intro start rest
  simp [lineFaults, hread, htitle]

theorem leads_groupEnd {line : Text} (hread : Statement.read line = .groupEnd) :
    Leads lineFaults (depth + 1) depth [line] := by
  intro start rest
  simp [lineFaults, hread]

theorem leads_directive {line : Text} (hread : Statement.read line = .directive) :
    Leads lineFaults depth depth [line] := by
  intro start rest
  simp [lineFaults, hread]

theorem leads_nodes {line : Text} {references : List Text}
    (hread : Statement.read line = .nodes references)
    (h : ∀ number, ∀ reference ∈ references, nodeFaults number reference = []) :
    Leads lineFaults depth depth [line] := by
  intro start rest
  simp [lineFaults, hread, List.flatMap_eq_nil_iff.mpr (h start)]

end FlowchartCheck

/-! ### Nodes -/

namespace NodeShape

def opening : NodeShape → Text
  | .box => ['[']
  | .decision => ['\x7b']
  | .terminal => ['(', '[']

def closing : NodeShape → Text
  | .box => [']']
  | .decision => ['\x7d']
  | .terminal => [']', ')']

/-- An identifier with a label behind it. -/
def around (shape : NodeShape) (id label : Text) : Text :=
  id ++ (shape.opening ++ '"' :: (label ++ '"' :: shape.closing))

open FlowchartCheck

variable {id label : Text} (shape : NodeShape)

theorem around_eq (id label : Text) : shape.around id label =
    (id ++ (shape.opening ++ '"' :: (label ++ ['"']))) ++ shape.closing := by
  simp [around]

theorem isWord_closing : IsWord shape.closing := by
  cases shape <;> decide

theorem hideQuoted_around (hid : IsNodeId id) (hlabel : '"' ∉ label) :
    hideQuoted false (shape.around id label) = shape.around id (label.map fun _ => 'x') := by
  have hopening : '"' ∉ shape.opening := by cases shape <;> decide
  have hclosing : '"' ∉ shape.closing := by cases shape <;> decide
  rw [around, hideQuoted_append (hid.not_mem (by decide)), hideQuoted_append hopening,
    hideQuoted_label hlabel, hideQuoted_of_not_mem hclosing, around]

theorem trim_around (hid : IsNodeId id) {indent : Text} (hindent : ∀ c ∈ indent, isWhite c = true) :
    trim (indent ++ shape.around id label) = shape.around id label := by
  rw [around_eq, List.append_assoc id,
    trim_between hindent (isWord_of_isId hid.isId) _ shape.isWord_closing]

theorem nodeFaults_around (hid : IsNodeId id) {indent : Text}
    (hindent : ∀ c ∈ indent, isWhite c = true) (line : Nat) :
    nodeFaults line (indent ++ shape.around id label) = [] := by
  apply nodeFaults_eq_nil (shape.trim_around hid hindent) hid
  cases shape <;> simp [opening, opensLabel]

theorem references_around (hid : IsNodeId id) (hlabel : '"' ∉ label) :
    references (shape.around id label) = [shape.around id (label.map fun _ => 'x')] := by
  have hfree : ∀ c ∈ ['-', '=', cut], c ∉ shape.around id (label.map fun _ => 'x') := by
    intro c hc
    have hchar : isNodeIdChar c = false ∧ c ∉ shape.opening ∧ c ∉ shape.closing ∧ c ≠ '"' ∧
        c ≠ 'x' := by
      simp only [List.mem_cons, List.not_mem_nil, or_false] at hc
      cases shape <;> obtain rfl | rfl | rfl := hc <;> decide
    obtain ⟨hid', hopening, hclosing, hquote, hx⟩ := hchar
    simp [around, hid.not_mem hid', hopening, hclosing, hquote, hx]
  simp only [List.forall_mem_cons] at hfree
  obtain ⟨hdash, hequals, hcut, -⟩ := hfree
  rw [← shape.hideQuoted_around hid hlabel] at hdash hequals hcut ⊢
  exact references_of_not_mem hdash hequals hcut

theorem balanced_around (hid : IsNodeId id) (hlabel : '"' ∉ label) :
    Delimiters.Balanced (shape.around id label) := by
  have hquoted : Delimiters.Balanced ('"' :: (label ++ ['"'])) := .quoted hlabel
  have hlabelled :
      Delimiters.Balanced (shape.opening ++ '"' :: (label ++ '"' :: shape.closing)) := by
    cases shape with
    | box =>
      have hbox : Delimiters.Balanced ('[' :: ('"' :: (label ++ ['"']) ++ [']'])) :=
        .bracketed rfl rfl hquoted
      simpa [opening, closing] using hbox
    | decision =>
      have hdecision : Delimiters.Balanced ('\x7b' :: ('"' :: (label ++ ['"']) ++ ['\x7d'])) :=
        .bracketed rfl rfl hquoted
      simpa [opening, closing] using hdecision
    | terminal =>
      have hterminal :
          Delimiters.Balanced ('(' :: ('[' :: ('"' :: (label ++ ['"']) ++ [']']) ++ [')'])) :=
        .bracketed rfl rfl (.bracketed rfl rfl hquoted)
      simpa [opening, closing] using hterminal
  exact .append hid.balanced hlabelled

end NodeShape

/-! ### Groups -/

/-- The node can be referred to by its identifier, which begins with a digit, and its label ends
where it should. -/
structure FlowNode.Drawn (node : FlowNode) : Prop where
  id : FlowchartCheck.IsNodeId node.id.toList
  digit : ∀ c ∈ node.id.toList.head?, c.isDigit = true
  label : '"' ∉ node.label.toList

structure FlowGroup.Drawn (group : FlowGroup) : Prop where
  id : FlowchartCheck.IsNodeId group.id.toList
  label : '"' ∉ group.label.toList
  nodes : ∀ node ∈ group.nodes, node.Drawn

open FlowchartCheck

theorem FlowNode.toList_line (node : FlowNode) :
    node.line.toList = node.shape.around node.id.toList node.label.toList := by
  rw [line]
  cases node.shape <;> simp [NodeShape.around, NodeShape.opening, NodeShape.closing]

/-- Lines of the group are indented once or twice. -/
def indent : Text := "    ".toList

theorem isWhite_of_mem_indent : ∀ c ∈ indent, isWhite c = true := by
  decide

namespace FlowNode.Drawn

variable {node : FlowNode}

theorem leads (h : node.Drawn) (depth : Nat) :
    Leads lineFaults depth depth [indent ++ indent ++ node.line.toList] := by
  have htrim : trim (indent ++ indent ++ node.line.toList) =
      node.shape.around node.id.toList node.label.toList := by
    rw [node.toList_line, node.shape.trim_around h.id (by decide)]
  have hread : Statement.read (indent ++ indent ++ node.line.toList) =
      .nodes [node.shape.around node.id.toList (node.label.toList.map fun _ => 'x')] := by
    rw [← node.shape.references_around h.id h.label, ← htrim]
    apply Statement.read_of_digit
    · rw [htrim]
      simp [NodeShape.around]
    · rw [htrim, NodeShape.around, List.head?_append_of_ne_nil _ h.id.1]
      exact h.digit
  refine leads_nodes hread fun number reference hreference => ?_
  rw [List.mem_singleton.mp hreference]
  exact node.shape.nodeFaults_around h.id (List.forall_mem_nil _) number

theorem balanced (h : node.Drawn) : Delimiters.Balanced node.line.toList := by
  rw [node.toList_line]
  exact node.shape.balanced_around h.id h.label

end FlowNode.Drawn

namespace FlowGroup.Drawn

variable {group : FlowGroup}

theorem ids_of_mem_edges (h : group.Drawn) {edge : String × String} (hedge : edge ∈ group.edges) :
    (IsNodeId edge.1.toList ∧ ∀ c ∈ edge.1.toList.head?, c.isDigit = true) ∧
      IsNodeId edge.2.toList ∧ ∀ c ∈ edge.2.toList.head?, c.isDigit = true := by
  have hids : ∀ id ∈ group.nodes.map FlowNode.id,
      IsNodeId id.toList ∧ ∀ c ∈ id.toList.head?, c.isDigit = true := by
    intro id hid
    obtain ⟨node, hnode, rfl⟩ := List.mem_map.mp hid
    exact ⟨(h.nodes node hnode).id, (h.nodes node hnode).digit⟩
  obtain ⟨hsource, htarget⟩ := mem_of_mem_neighbours hedge
  exact ⟨hids _ hsource, hids _ htarget⟩

theorem leads_edge (h : group.Drawn) {edge : String × String} (hedge : edge ∈ group.edges)
    (depth : Nat) :
    Leads lineFaults depth depth [indent ++ indent ++ (edge.1 ++ " --> " ++ edge.2).toList] := by
  obtain ⟨⟨hsource, hdigit⟩, htarget, -⟩ := h.ids_of_mem_edges hedge
  have hsourceWord := isWord_of_isId hsource.isId
  have htargetWord := isWord_of_isId htarget.isId
  have htrim : trim (indent ++ indent ++ (edge.1 ++ " --> " ++ edge.2).toList) =
      edge.1.toList ++ ' ' :: '-' :: '-' :: '>' :: ' ' :: edge.2.toList := by
    have htext := trim_between (by decide : ∀ c ∈ indent ++ indent, isWhite c = true)
      hsourceWord " --> ".toList htargetWord
    simpa [String.toList_append] using htext
  have hread : Statement.read (indent ++ indent ++ (edge.1 ++ " --> " ++ edge.2).toList) =
      .nodes [edge.1.toList ++ [' '], ' ' :: edge.2.toList] := by
    rw [← references_edge hsource htarget, ← htrim]
    apply Statement.read_of_digit
    · rw [htrim]
      simp
    · rw [htrim, List.head?_append_of_ne_nil _ hsource.1]
      exact hdigit
  refine leads_nodes hread fun number reference hreference => ?_
  simp only [List.mem_cons, List.not_mem_nil, or_false] at hreference
  have hspace : ∀ c ∈ [' '], isWhite c = true := by decide
  obtain rfl | rfl := hreference
  · have htrim := hsourceWord.trim_append (List.forall_mem_nil _) hspace
    exact nodeFaults_eq_nil (htrim.trans (List.append_nil _).symm) hsource (by simp) number
  · have htrim := htargetWord.trim_append hspace (List.forall_mem_nil _)
    rw [List.append_nil] at htrim
    exact nodeFaults_eq_nil (htrim.trans (List.append_nil _).symm) htarget (by simp) number

theorem leads_title (h : group.Drawn) (depth : Nat) :
    Leads lineFaults depth (depth + 1)
      [("    subgraph " ++ group.id ++ "[\"" ++ group.label ++ "\"]").toList] := by
  have hline : ("    subgraph " ++ group.id ++ "[\"" ++ group.label ++ "\"]").toList =
      indent ++ ("subgraph".toList ++ ' ' ::
        NodeShape.box.around group.id.toList group.label.toList) := by
    simp [indent, NodeShape.around, NodeShape.opening, NodeShape.closing]
  have htrim : trim (indent ++ ("subgraph".toList ++ ' ' ::
      NodeShape.box.around group.id.toList group.label.toList)) =
        "subgraph".toList ++ ' ' :: NodeShape.box.around group.id.toList group.label.toList := by
    rw [NodeShape.around_eq, ← List.cons_append]
    exact trim_between isWhite_of_mem_indent (by decide) _ NodeShape.box.isWord_closing
  rw [hline]
  refine leads_groupBegin (Statement.read_of_title htrim) fun number => ?_
  rw [← List.singleton_append, hideQuoted_append (by decide),
    NodeShape.box.hideQuoted_around h.id h.label]
  exact NodeShape.box.nodeFaults_around h.id (by decide) number

theorem leads (h : group.Drawn) (stacked : Bool) :
    Leads lineFaults 0 0 ((group.lines stacked).map String.toList) := by
  have hdirection : Leads lineFaults 1 1 ((if stacked then ["        direction TB"] else []).map
      String.toList) := by
    cases stacked with
    | false => exact .of_forall (by simp)
    | true => exact leads_directive (by decide)
  have hnodes : Leads lineFaults 1 1 ((group.nodes.map fun node => "        " ++ node.line).map
      String.toList) := by
    apply Leads.of_forall
    simp only [List.map_map, List.forall_mem_map]
    intro node hnode
    rw [Function.comp_apply, String.toList_append]
    exact (h.nodes node hnode).leads 1
  have hedges : Leads lineFaults 1 1 ((group.edges.map fun edge =>
      "        " ++ edge.1 ++ " --> " ++ edge.2).map String.toList) := by
    apply Leads.of_forall
    simp only [List.map_map, List.forall_mem_map]
    intro edge hedge
    have hleads := h.leads_edge hedge 1
    simpa [indent] using hleads
  have hend : Leads lineFaults 1 0 ["    end".toList] := leads_groupEnd (by decide)
  simp only [lines, List.map_append, List.append_assoc]
  exact (h.leads_title 0).append
    (hdirection.append (hnodes.append (hedges.append hend)))

theorem balanced_of_mem_lines (h : group.Drawn) {stacked : Bool} {line : String}
    (hline : line ∈ group.lines stacked) : Delimiters.Balanced line.toList := by
  simp only [lines, List.mem_append, List.mem_singleton, List.mem_map] at hline
  obtain (((rfl | hline) | ⟨node, hnode, rfl⟩) | ⟨edge, hedge, rfl⟩) | rfl := hline
  · have htitle : Delimiters.Balanced ("    subgraph ".toList ++
        NodeShape.box.around group.id.toList group.label.toList) :=
      .append (.plain (by decide)) (NodeShape.box.balanced_around h.id h.label)
    simpa [NodeShape.around, NodeShape.opening, NodeShape.closing] using htitle
  · split at hline
    · rw [List.mem_singleton.mp hline]
      exact .plain (by decide)
    · contradiction
  · rw [String.toList_append]
    exact .append (.plain (by decide)) (h.nodes node hnode).balanced
  · obtain ⟨⟨hsource, -⟩, htarget, -⟩ := h.ids_of_mem_edges hedge
    simp only [String.toList_append]
    exact .append (.append (.append (.plain (by decide)) hsource.balanced) (.plain (by decide)))
      htarget.balanced
  · exact .plain (by decide)

theorem isSignificant_of_mem_lines (h : group.Drawn) {stacked : Bool} {line : String}
    (hline : line ∈ group.lines stacked) : isSignificant line.toList = true := by
  simp only [lines, List.mem_append, List.mem_singleton, List.mem_map] at hline
  obtain (((rfl | hline) | ⟨node, hnode, rfl⟩) | ⟨edge, hedge, rfl⟩) | rfl := hline
  · simp only [String.toList_append, List.append_assoc]
    exact isSignificant_append (by decide : ∀ c ∈ "    ".toList, isWhite c = true) (by decide)
      (by decide : 's' ≠ '%') _
  · split at hline
    · rw [List.mem_singleton.mp hline]
      decide
    · contradiction
  · rw [String.toList_append, node.toList_line]
    exact isSignificant_of_isId (by decide) (h.nodes node hnode).id.isId _
  · obtain ⟨⟨hsource, -⟩, -⟩ := h.ids_of_mem_edges hedge
    simp only [String.toList_append, List.append_assoc]
    exact isSignificant_of_isId (by decide) hsource.isId _
  · decide

end FlowGroup.Drawn

theorem Flowchart.faults_render {chart : Flowchart} (hclean : ∀ group ∈ chart.groups, group.Clean)
    (hdrawn : ∀ group ∈ chart.groups, group.Drawn) :
    faults .journey chart.render.toList = [] := by
  let first : String := if chart.stacked then "flowchart LR" else "flowchart TD"
  let body := chart.groups.flatMap (FlowGroup.lines chart.stacked)
  have hfirst : isSignificant first.toList = true ∧
      declared? (trim first.toList) = some .journey := by
    cases hstacked : chart.stacked <;> simp only [first, hstacked] <;> decide
  have hlines : ∀ line ∈ first.toList :: body.map String.toList,
      Unbroken line ∧ isSignificant line = true := by
    have hbroken : ∀ line ∈ chart.lines, Unbroken line.toList :=
      fun line hline => (Flowchart.plainLine hclean hline).unbroken
    rw [List.forall_mem_cons, List.forall_mem_map]
    refine ⟨⟨hbroken first List.mem_cons_self, hfirst.1⟩, fun line hline => ?_⟩
    refine ⟨hbroken line (List.mem_cons_of_mem _ hline), ?_⟩
    obtain ⟨group, hgroup, hline⟩ := List.mem_flatMap.mp hline
    exact (hdrawn group hgroup).isSignificant_of_mem_lines hline
  have hdelimiters : Leads (Delimiters.scan .journey) [] [] (body.map String.toList) := by
    apply Leads.of_forall
    rw [List.forall_mem_map]
    intro line hline
    obtain ⟨group, hgroup, hline⟩ := List.mem_flatMap.mp hline
    have hclear : Delimiters.Clear .journey line.toList :=
      Delimiters.Balanced.clear ((hdrawn group hgroup).balanced_of_mem_lines hline)
    exact hclear.leads []
  have hstatements : Leads lineFaults 0 0 (body.map String.toList) := by
    rw [List.map_flatMap]
    exact .flatMap fun group hgroup => (hdrawn group hgroup).leads chart.stacked
  have hlines' : chart.lines = first :: body := rfl
  rw [Flowchart.render, Diagram.toList_join_lines, hlines', List.map_cons,
    faults_flatMap_feed hlines hfirst.2, bodyFaults, Delimiters.check_eq_scan,
    hdelimiters.eq_nil rfl]
  exact hstatements.eq_nil rfl 2

/-! ### Journeys -/

namespace Journey

theorem isNodeId_nodeId (ordinal index : Nat) : IsNodeId (nodeId ordinal index).toList ∧
    ∀ c ∈ (nodeId ordinal index).toList.head?, c.isDigit = true := by
  have hletters : (Label.letters index).toList = Label.lettersOf (index + 1) :=
    String.toList_ofList
  have hnumber : (toString ordinal).toList ≠ [] := by
    simp
  rw [nodeId, String.toList_append, String.toList_append, hletters]
  refine ⟨⟨by simp, ?_⟩, ?_⟩
  · rw [List.forall_mem_append, List.forall_mem_append]
    refine ⟨⟨fun c hc => ?_, by decide⟩, fun c hc => ?_⟩
    · simp [isNodeIdChar, Label.isAsciiAlphanum_of_mem_toString hc]
    · simp [isNodeIdChar, Label.isAsciiAlphanum_of_mem_lettersOf c hc]
  · rw [List.append_assoc, List.head?_append_of_ne_nil _ hnumber]
    exact fun c hc => Label.isDigit_of_mem_toString (List.mem_of_mem_head? hc)

theorem drawn_storyGroup (ordinal : Nat) (story : Story) : (storyGroup ordinal story).Drawn := by
  have hnumber : ∀ n : Nat, '"' ∉ (toString n).toList := by
    intro n hc
    exact absurd (Label.isDigit_of_mem_toString hc) (by decide)
  refine ⟨?_, ?_, ?_⟩
  · simp only [storyGroup, String.toList_append]
    refine ⟨by simp, ?_⟩
    rw [List.forall_mem_append]
    refine ⟨by decide, fun c hc => ?_⟩
    simp [isNodeIdChar, Label.isAsciiAlphanum_of_mem_toString hc]
  · have hpriority : '"' ∉ story.priority.text.toList := by
      cases story.priority <;> decide
    simp only [storyGroup, String.toList_append, List.append_assoc, List.mem_append, not_or]
    exact ⟨by decide, hnumber _, by decide, Label.quote_not_mem_escape _, by decide, hpriority,
      by decide⟩
  · intro node hnode
    obtain ⟨index, shape, word, hword, text, rfl⟩ := exists_eq_of_mem_storyNodes hnode
    have hquote : ∀ word ∈ ["", "Given ", "When ", "Then "], '"' ∉ word.toList := by
      decide
    refine ⟨(isNodeId_nodeId ordinal index).1, (isNodeId_nodeId ordinal index).2, ?_⟩
    rw [String.toList_append, List.mem_append, not_or]
    exact ⟨hquote word hword, Label.quote_not_mem_escape text⟩

theorem drawn_groups {ordinal : Nat} {stories : List Story} :
    ∀ group ∈ groups ordinal stories, group.Drawn := by
  intro group hgroup
  obtain ⟨ordinal, story, rfl⟩ := exists_eq_of_mem_groups hgroup
  exact drawn_storyGroup ordinal story

/-- Whatever the stories say, their chart has no fault. -/
theorem faults_markup (limits : Limits) (stories : List Story) :
    faults .journey (render limits stories).markup.toList = [] :=
  Flowchart.faults_render clean_groups drawn_groups

end Journey
end DiagramSync
