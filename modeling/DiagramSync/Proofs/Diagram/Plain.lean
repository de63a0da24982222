import DiagramSync.Document.Line
import DiagramSync.Engine
import DiagramSync.Proofs.Diagram.Label
import DiagramSync.Proofs.Text.Words

/-!
The lines of markup: none is the mark of a code block or of a region, whatever the document
says in names and titles.
-/

namespace DiagramSync

open Text

/-! ### Indented lines -/

/-- The text is indented by four spaces and does not go on like a marker. -/
def Indented (text : Text) : Prop :=
  (∃ body, text = "    ".toList ++ body) ∧ ∃ c rest, skipSpaces text = c :: rest ∧ c ≠ '<'

namespace Indented

theorem append {a : Text} (h : Indented a) (b : Text) : Indented (a ++ b) := by
  obtain ⟨⟨body, hbody⟩, c, rest, hskip, hc⟩ := h
  refine ⟨⟨body ++ b, by rw [hbody, List.append_assoc]⟩, c, rest ++ b, ?_, hc⟩
  rw [skipSpaces] at hskip ⊢
  rw [List.dropWhile_append, hskip]
  rfl

theorem deeper {text : Text} (h : Indented text) : Indented ("    ".toList ++ text) := by
  obtain ⟨-, c, rest, hskip, hc⟩ := h
  refine ⟨⟨text, rfl⟩, c, rest, ?_, hc⟩
  rw [skipSpaces] at hskip ⊢
  rw [List.dropWhile_append_of_pos (List.all_eq_true.mp (by decide)), hskip]

theorem ofSolid {text : Text} (h : Solid text) : Indented ("    ".toList ++ text) := by
  obtain ⟨c, rest, rfl⟩ := List.exists_cons_of_ne_nil h.1
  have hsolid := h.2 c List.mem_cons_self
  have hspace : isSpace c = false := by
    rw [Bool.eq_false_iff]
    intro hspace
    simp only [isSpace, Bool.or_eq_true, beq_iff_eq] at hspace
    obtain rfl | rfl := hspace
    · exact hsolid (by decide)
    · exact hsolid (by decide)
  refine ⟨⟨_, rfl⟩, c, rest, ?_, ?_⟩
  · rw [skipSpaces, List.dropWhile_append_of_pos (List.all_eq_true.mp (by decide)),
      List.dropWhile_cons, hspace]
    rfl
  · rintro rfl
    exact hsolid (by decide)

end Indented

/-- The text stands on one line, which is no mark of a code block and no marker. -/
structure PlainLine (line : Text) : Prop where
  unbroken : Unbroken line
  no_fence : Fence.ofLine? line = none
  no_marker : Marker.parse? line = none

theorem Indented.plainLine {line : Text} (h : Indented line) (hunbroken : Unbroken line) :
    PlainLine line := by
  obtain ⟨⟨body, rfl⟩, c, rest, hskip, hc⟩ := h
  refine ⟨hunbroken, ?_, ?_⟩
  · have htrim : trimStart ("    ".toList ++ body) = trimStart body :=
      List.dropWhile_append_of_pos (List.all_eq_true.mp (by decide))
    rw [Fence.ofLine?, htrim]
    have hle : size (trimStart body) ≤ size body := size_le_of_suffix (trimStart_suffix body)
    cases htext : trimStart body with
    | nil => rfl
    | cons marker run =>
      rw [htext] at hle
      dsimp only
      rw [if_neg]
      rintro ⟨hindent, -⟩
      rw [size_append, show size "    ".toList = 4 from rfl] at hindent
      omega
  · have hnone : stripPrefix? "<!--".toList (c :: rest) = none := by
      rw [show "<!--".toList = '<' :: "!--".toList from rfl, stripPrefix?, if_neg (Ne.symm hc)]
    rw [Marker.parse?, hskip, hnone]
    rfl

theorem plainLine_of_solid {indent first rest : Text}
    (hindent : indent = "    ".toList ∨ indent = "        ".toList) (hfirst : Solid first)
    (hrest : Unbroken rest) : PlainLine (indent ++ (first ++ rest)) := by
  have honce : Indented ("    ".toList ++ (first ++ rest)) := by
    rw [← List.append_assoc]
    exact (Indented.ofSolid hfirst).append rest
  have htext : Unbroken ("    ".toList ++ (first ++ rest)) := by
    simp only [unbroken_append]
    exact ⟨by decide, hfirst.unbroken, hrest⟩
  obtain rfl | rfl := hindent
  · exact honce.plainLine htext
  · exact honce.deeper.plainLine (unbroken_append.mpr ⟨by decide, htext⟩)

/-! ### Flowcharts -/

/-- The identifier is one and the label stands on one line. -/
def FlowNode.Clean (node : FlowNode) : Prop :=
  Label.IsId node.id.toList ∧ Unbroken node.label.toList

/-- The group and its nodes are clean. -/
structure FlowGroup.Clean (group : FlowGroup) : Prop where
  id : Unbroken group.id.toList
  label : Unbroken group.label.toList
  nodes : ∀ node ∈ group.nodes, node.Clean

theorem FlowNode.Clean.plainLine {node : FlowNode} (h : node.Clean) :
    PlainLine ("        " ++ node.line).toList := by
  obtain ⟨hid, hlabel⟩ := h
  have hline : ∃ before after, Unbroken before ∧ Unbroken after ∧
      node.line.toList = node.id.toList ++ (before ++ (node.label.toList ++ after)) := by
    rw [line]
    cases node.shape with
    | box => exact ⟨"[\"".toList, "\"]".toList, by decide, by decide, by simp⟩
    | decision => exact ⟨"\x7b\"".toList, "\"\x7d".toList, by decide, by decide, by simp⟩
    | terminal => exact ⟨"([\"".toList, "\"])".toList, by decide, by decide, by simp⟩
  obtain ⟨before, after, hbefore, hafter, hline⟩ := hline
  rw [String.toList_append, hline]
  apply plainLine_of_solid (.inr rfl) hid.solid
  simp only [unbroken_append]
  exact ⟨hbefore, hlabel, hafter⟩

theorem FlowGroup.mem_of_mem_neighbours {α : Type} {list : List α} {pair : α × α}
    (h : pair ∈ neighbours list) : pair.1 ∈ list ∧ pair.2 ∈ list := by
  induction list using neighbours.induct with
  | case1 first second rest ih =>
    rw [neighbours, List.mem_cons] at h
    obtain rfl | h := h
    · simp
    · exact (ih h).imp (List.mem_cons_of_mem _) (List.mem_cons_of_mem _)
  | case2 list hshort => simp [neighbours] at h

theorem FlowGroup.Clean.plainLine_edge {group : FlowGroup} (h : group.Clean)
    {edge : String × String} (hedge : edge ∈ group.edges) :
    PlainLine ("        " ++ edge.1 ++ " --> " ++ edge.2).toList := by
  have hids : ∀ id ∈ group.nodes.map FlowNode.id, Label.IsId id.toList := by
    intro id hid
    obtain ⟨node, hnode, rfl⟩ := List.mem_map.mp hid
    exact (h.nodes node hnode).1
  obtain ⟨hsource, htarget⟩ := mem_of_mem_neighbours hedge
  have hsource := hids _ hsource
  have htarget := hids _ htarget
  simp only [String.toList_append, List.append_assoc]
  apply plainLine_of_solid (.inr rfl) hsource.solid
  rw [unbroken_append]
  exact ⟨by decide, htarget.solid.unbroken⟩

theorem FlowGroup.Clean.plainLine {group : FlowGroup} (h : group.Clean) {stacked : Bool}
    {line : String} (hline : line ∈ group.lines stacked) : PlainLine line.toList := by
  simp only [lines, List.mem_append, List.mem_singleton, List.mem_map] at hline
  obtain (((rfl | hline) | ⟨node, hnode, rfl⟩) | ⟨edge, hedge, rfl⟩) | rfl := hline
  · simp only [String.toList_append, List.append_assoc]
    apply Indented.plainLine
    · exact Indented.append ⟨⟨"subgraph ".toList, rfl⟩, 's', "ubgraph ".toList, by decide⟩ _
    · simp only [unbroken_append]
      exact ⟨by decide, h.id, by decide, h.label, by decide⟩
  · split at hline
    · rw [List.mem_singleton] at hline
      rw [hline]
      exact ⟨by decide, by decide, by decide⟩
    · contradiction
  · exact (h.nodes node hnode).plainLine
  · exact h.plainLine_edge hedge
  · exact ⟨by decide, by decide, by decide⟩

theorem Flowchart.plainLine {chart : Flowchart} (h : ∀ group ∈ chart.groups, group.Clean)
    {line : String} (hline : line ∈ chart.lines) : PlainLine line.toList := by
  rw [lines, List.mem_cons, List.mem_flatMap] at hline
  obtain rfl | ⟨group, hgroup, hline⟩ := hline
  · split
    · exact ⟨by decide, by decide, by decide⟩
    · exact ⟨by decide, by decide, by decide⟩
  · exact (h group hgroup).plainLine hline

/-! ### Journeys -/

namespace Journey

theorem isId_nodeId (ordinal index : Nat) : Label.IsId (nodeId ordinal index).toList := by
  have hletters : (Label.letters index).toList = Label.lettersOf (index + 1) :=
    String.toList_ofList
  rw [nodeId, String.toList_append, String.toList_append, hletters]
  refine ⟨by simp, ?_⟩
  rw [List.forall_mem_append, List.forall_mem_append]
  refine ⟨⟨fun c hc => ?_, List.all_eq_true.mp (by decide)⟩, fun c hc => ?_⟩
  · exact Label.isIdChar_of_isAsciiAlphanum (Label.isAsciiAlphanum_of_mem_toString hc)
  · exact Label.isIdChar_of_isAsciiAlphanum (Label.isAsciiAlphanum_of_mem_lettersOf c hc)

/-- A node's label is a text as it is written between quotes, with at most a word in front. -/
theorem exists_eq_of_mem_scenarioNodes {ordinal index : Nat} {scenarios : List Scenario}
    {node : FlowNode} (h : node ∈ scenarioNodes ordinal index scenarios) :
    ∃ index shape, ∃ word ∈ ["", "Given ", "When ", "Then "], ∃ text,
      node = ⟨nodeId ordinal index, shape, word ++ Label.escape text⟩ := by
  induction scenarios generalizing index with
  | nil => contradiction
  | cons scenario rest ih =>
    simp only [scenarioNodes, List.mem_cons] at h
    obtain rfl | rfl | rfl | h := h
    · exact ⟨_, _, "Given ", by simp, _, rfl⟩
    · exact ⟨_, _, "When ", by simp, _, rfl⟩
    · exact ⟨_, _, "Then ", by simp, _, rfl⟩
    · exact ih h

theorem exists_eq_of_mem_storyNodes {ordinal : Nat} {story : Story} {node : FlowNode}
    (h : node ∈ storyNodes ordinal story) :
    ∃ index shape, ∃ word ∈ ["", "Given ", "When ", "Then "], ∃ text,
      node = ⟨nodeId ordinal index, shape, word ++ Label.escape text⟩ := by
  rw [storyNodes] at h
  split at h
  · rw [List.mem_singleton] at h
    exact ⟨0, .box, "", by simp, story.title, by rw [h, String.empty_append]⟩
  · exact exists_eq_of_mem_scenarioNodes h

theorem exists_eq_of_mem_groups {ordinal : Nat} {stories : List Story} {group : FlowGroup}
    (h : group ∈ groups ordinal stories) : ∃ ordinal story, group = storyGroup ordinal story := by
  induction stories generalizing ordinal with
  | nil => contradiction
  | cons story rest ih =>
    rw [groups, List.mem_cons] at h
    obtain rfl | h := h
    · exact ⟨ordinal, story, rfl⟩
    · exact ih h

theorem clean_storyGroup (ordinal : Nat) (story : Story) : (storyGroup ordinal story).Clean := by
  have hnumber : ∀ n : Nat, Unbroken (toString n).toList := by
    intro n c hc
    have hdigit := Label.isAsciiAlphanum_of_mem_toString hc
    have hid : Label.IsId [c] :=
      ⟨by simp, by simpa using Label.isIdChar_of_isAsciiAlphanum hdigit⟩
    exact hid.solid.unbroken c List.mem_cons_self
  refine ⟨?_, ?_, ?_⟩
  · simp only [storyGroup, String.toList_append, unbroken_append]
    exact ⟨by decide, hnumber ordinal⟩
  · have hpriority : Unbroken story.priority.text.toList := by
      cases story.priority <;> decide
    simp only [storyGroup, String.toList_append, List.append_assoc, unbroken_append]
    exact ⟨by decide, hnumber _, by decide, Label.unbroken_escape _, by decide, hpriority,
      by decide⟩
  · intro node hnode
    obtain ⟨index, shape, word, hword, text, rfl⟩ := exists_eq_of_mem_storyNodes hnode
    have hunbroken : ∀ word ∈ ["", "Given ", "When ", "Then "], Unbroken word.toList := by
      decide
    refine ⟨isId_nodeId ordinal index, ?_⟩
    rw [String.toList_append, unbroken_append]
    exact ⟨hunbroken word hword, Label.unbroken_escape text⟩

theorem clean_groups {ordinal : Nat} {stories : List Story} :
    ∀ group ∈ groups ordinal stories, group.Clean := by
  intro group hgroup
  obtain ⟨ordinal, story, rfl⟩ := exists_eq_of_mem_groups hgroup
  exact clean_storyGroup ordinal story

end Journey

/-! ### Data models -/

namespace DataModel

theorem word_ne_nil (brackets : Bool) (text : String) : (word brackets text).toList ≠ [] := by
  rw [word, String.toList_ofList]
  split
  · simp
  · split <;> simp_all

theorem isMarkupChar_of_mem_word {brackets : Bool} {text : String} :
    ∀ c ∈ (word brackets text).toList, isMarkupChar brackets c = true := by
  have hline : isMarkupChar brackets '_' = true := by
    cases brackets <;> decide
  have hmap : ∀ c ∈ text.toList.map (fun c => if isMarkupChar brackets c then c else '_'),
      isMarkupChar brackets c = true := by
    intro c hc
    obtain ⟨d, -, rfl⟩ := List.mem_map.mp hc
    split
    · assumption
    · exact hline
  rw [word, String.toList_ofList]
  split
  · exact List.forall_mem_singleton.mpr hline
  · split
    · exact hmap
    · exact List.forall_mem_cons.mpr ⟨hline, hmap⟩

theorem solid_word (brackets : Bool) (text : String) : Solid (word brackets text).toList := by
  refine solid_of_forall ?_ (word_ne_nil brackets text) isMarkupChar_of_mem_word
  cases brackets <;> decide

theorem plainLine_attributeLine (attr : Attribute) : PlainLine (attributeLine attr).toList := by
  have hmarks : Unbroken (keyMarks attr).toList := by
    rw [keyMarks]
    split <;> decide
  simp only [attributeLine, String.toList_append, List.append_assoc]
  apply plainLine_of_solid (.inr rfl) (solid_word true attr.type)
  simp only [unbroken_append]
  exact ⟨by decide, (solid_word _ _).unbroken, hmarks⟩

theorem plainLine_of_mem_entityLines {id : String} (hid : Label.IsId id.toList)
    {attributes : List Attribute} {line : String} (h : line ∈ entityLines id attributes) :
    PlainLine line.toList := by
  cases attributes with
  | nil =>
    rw [entityLines, List.mem_singleton] at h
    rw [h, String.toList_append, ← List.append_nil id.toList]
    exact plainLine_of_solid (.inl rfl) hid.solid (by decide)
  | cons first rest =>
    simp only [entityLines, List.mem_append, List.mem_singleton, List.mem_map] at h
    obtain (rfl | ⟨attr, -, rfl⟩) | rfl := h
    · simp only [String.toList_append, List.append_assoc]
      exact plainLine_of_solid (.inl rfl) hid.solid (by decide)
    · exact plainLine_attributeLine attr
    · exact ⟨by decide, by decide, by decide⟩

theorem mem_of_idOf? {names ids : List String} {name id : String}
    (h : idOf? (names.zip ids) name = some id) : id ∈ ids := by
  obtain ⟨before, after, hzip, -⟩ := List.lookup_eq_some_iff.mp h
  have hmem : (name, id) ∈ (names.zip ids).reverse := by simp [hzip]
  exact (List.of_mem_zip (List.mem_reverse.mp hmem)).2

theorem plainLine_of_relationshipLine? {names ids : List String}
    (hids : ∀ id ∈ ids, Label.IsId id.toList) {relationship : Relationship} {line : String}
    (h : relationshipLine? (names.zip ids) relationship = some line) : PlainLine line.toList := by
  obtain ⟨source, hsource, h⟩ := Option.bind_eq_some_iff.mp h
  obtain ⟨target, htarget, h⟩ := Option.bind_eq_some_iff.mp h
  obtain rfl := Option.some.inj h
  have hsource := (hids source (mem_of_idOf? hsource)).solid
  have htarget := (hids target (mem_of_idOf? htarget)).solid
  have htoken : Unbroken relationship.cardinality.token.toList := by
    cases relationship.cardinality <;> decide
  simp only [String.toList_append, List.append_assoc]
  apply plainLine_of_solid (.inl rfl) hsource
  simp only [unbroken_append]
  exact ⟨by decide, htoken, by decide, htarget.unbroken, by decide, Label.unbroken_escape _,
    by decide⟩

theorem plainLine_of_mem_lines {entities : List Entity} {line : String}
    (h : line ∈ lines entities) : PlainLine line.toList := by
  have hids : ∀ id ∈ Label.identifiers (entities.map Entity.name), Label.IsId id.toList :=
    fun _ => Label.isId_of_mem_identifiers
  simp only [lines, List.cons_append, List.mem_cons, List.mem_append, List.mem_flatMap,
    List.mem_filterMap] at h
  obtain rfl | ⟨⟨id, entity⟩, hzip, h⟩ | ⟨entity, -, relationship, -, h⟩ := h
  · exact ⟨by decide, by decide, by decide⟩
  · exact plainLine_of_mem_entityLines (hids id (List.of_mem_zip hzip).1) h
  · exact plainLine_of_relationshipLine? hids h

end DataModel

/-! ### Diagrams -/

/-- The markup is made of plain lines. -/
def Diagram.Plain (diagram : Diagram) : Prop :=
  ∃ first rest, (∀ line ∈ first :: rest, PlainLine line) ∧
    diagram.markup.toList = (first :: rest).flatMap fun line => line ++ ['\n']

theorem Diagram.toList_join_lines (lines : List String) :
    (String.join (lines.map fun line => line ++ "\n")).toList =
      (lines.map String.toList).flatMap fun line => line ++ ['\n'] := by
  rw [String.toList_join, List.flatMap_map, List.flatMap_map]
  congr 1
  funext line
  exact String.toList_append

theorem Diagram.lines_join_lines {lines : List String}
    (h : ∀ line ∈ lines, Unbroken line.toList) :
    Text.lines (String.join (lines.map fun line => line ++ "\n")).toList =
      lines.map String.toList := by
  rw [toList_join_lines, lines_flatMap_feed]
  rwa [List.forall_mem_map]

theorem Diagram.plain_of_lines {diagram : Diagram} {first : String} {rest : List String}
    (hmarkup : diagram.markup = String.join ((first :: rest).map fun line => line ++ "\n"))
    (h : ∀ line ∈ first :: rest, PlainLine line.toList) : diagram.Plain := by
  refine ⟨first.toList, rest.map String.toList, ?_, ?_⟩
  · rw [← List.map_cons, List.forall_mem_map]
    exact h
  · rw [hmarkup, toList_join_lines, List.map_cons]

theorem Journey.plain_render (limits : Limits) (stories : List Story) :
    (render limits stories).Plain :=
  Diagram.plain_of_lines rfl fun _ => Flowchart.plainLine clean_groups

/-- The diagrams that are made as the settings ask have plain markup. -/
theorem Engine.plain_standardSynthesis {config : Config} {kind : Kind} {model : Model}
    {diagram : Diagram} (h : standardSynthesis config kind model = some diagram) :
    diagram.kind = kind ∧ diagram.Plain := by
  cases kind with
  | journey =>
    rw [standardSynthesis, Journey.diagram?] at h
    split at h
    · contradiction
    · obtain rfl := Option.some.inj h
      exact ⟨rfl, Journey.plain_render config.journey model.stories⟩
  | entityRelationship =>
    rw [standardSynthesis, DataModel.diagram?] at h
    split at h
    · contradiction
    · obtain rfl := Option.some.inj h
      exact ⟨rfl, Diagram.plain_of_lines rfl fun line => DataModel.plainLine_of_mem_lines⟩

end DiagramSync
