import DiagramSync.Proofs.Engine.Reading
import DiagramSync.Proofs.Update.Slot

/-!
Stale content: what stands in the region of a diagram before a run replaces it. Readers look at
it like at any other part of the document, so it comes through to the updated document wherever
it shows them something or opens a code block that goes on behind it, and nowhere else.
-/

namespace DiagramSync

open Text

/-- It does not matter where the lines stand. -/
theorem Line.shown_ofPieces (opened : Option Fence) (start : Nat) (pieces : List Text) :
    shown (ofPieces opened start pieces) = shown (ofPieces opened 0 pieces) := by
  have hshift := ofPieces_shift start opened 0 pieces
  rw [Nat.add_zero] at hshift
  rw [hshift, shown, shown, List.filter_map, List.map_map]
  rfl

namespace Slot

variable {slot : Slot} {content content' : Text}

/-! ### What readers see -/

/-- Behind the open fence the two contents show readers the same lines, and the same fence is
open behind both. -/
structure Alike (opened : Option Fence) (content content' : Text) : Prop where
  shown_eq : Line.shown (Line.ofPieces opened 0 (pieces content)) =
    Line.shown (Line.ofPieces opened 0 (pieces content'))
  fence_eq : Fence.after opened (pieces content) = Fence.after opened (pieces content')

/-- Readers see nothing of the blocks that updates write. -/
theorem Alike.of_plain {diagram diagram' : Diagram} (h : diagram.Plain) (h' : diagram'.Plain)
    (opened : Option Fence) :
    Alike opened (Update.codeBlock diagram.markup) (Update.codeBlock diagram'.markup) := by
  have hshown : ∀ diagram : Diagram, diagram.Plain →
      Line.shown (Line.ofPieces opened 0 (pieces (Update.codeBlock diagram.markup))) = [] := by
    intro diagram hplain
    rw [Line.shown, List.map_eq_nil_iff, List.filter_eq_nil_iff]
    intro line hline
    simp [Line.isShown, (hplain.fenced_codeBlock opened 0).1 line hline]
  exact ⟨(hshown diagram h).trans (hshown diagram' h').symm,
    (h.fenced_codeBlock opened 0).2.trans (h'.fenced_codeBlock opened 0).2.symm⟩

theorem whole_front (hproper : (slot.fill content).Proper) : Whole slot.front :=
  (Layout.whole_text_of_closed ((Layout.proper_append.mp hproper).2.1 (by simp))).append
    (whole_opener hproper)

theorem shown_fill (hproper : (slot.fill content).Proper) :
    Line.shown (Line.scan (slot.fill content).text) =
      Line.shown (Line.ofPieces none 0 (pieces slot.front)) ++
        (Line.shown (Line.ofPieces (Fence.after none (pieces slot.front)) 0 (pieces content)) ++
          Line.shown (Line.ofPieces (Fence.after (Fence.after none (pieces slot.front))
            (pieces content)) 0 (pieces slot.back))) := by
  have hcontent : Whole content := (markedRegion hproper).content_whole rfl
  rw [text_fill, Line.scan, pieces_append (whole_front hproper), pieces_append hcontent,
    Line.ofPieces_append, Line.ofPieces_append, Line.shown_append, Line.shown_append,
    Line.shown_ofPieces _ (0 + _), Line.shown_ofPieces _ (0 + _ + _)]

theorem shown_fill_eq (hproper : (slot.fill content).Proper)
    (hproper' : (slot.fill content').Proper)
    (halike : Alike (Fence.after none (pieces slot.front)) content content') :
    Line.shown (Line.scan (slot.fill content).text) =
      Line.shown (Line.scan (slot.fill content').text) := by
  rw [shown_fill hproper, shown_fill hproper', halike.shown_eq, halike.fence_eq]

end Slot

/-! ### Runs -/

/-- The documents are accepted, and they are the same but for the content of the region of that
name, which has its end marker in both. -/
structure Region.Exchanged (name : String) (document document' : Text) (region region' : Region) :
    Prop where
  accepted : ∃ found, ofDocument document = .ok found ∧ region ∈ found.records
  accepted' : ∃ found, ofDocument document' = .ok found ∧ region' ∈ found.records
  name_eq : region.name = name
  name_eq' : region'.name = name
  terminated : region.terminated = true
  terminated' : region'.terminated = true
  front_eq : takeBytes region.contentRange.start document =
    takeBytes region'.contentRange.start document'
  back_eq : dropBytes region.contentRange.stop document =
    dropBytes region'.contentRange.stop document'

/-- The two documents are one slot with two contents in it. -/
theorem Region.Exchanged.exists_slot {name : String} {document document' : Text}
    {region region' : Region} (h : Exchanged name document document' region region') :
    ∃ slot : Slot, slot.name = name ∧
      slot.front = takeBytes region.contentRange.start document ∧
      (∃ found, ofDocument document = .ok found ∧
        found.records = (slot.fill region.content.toList).regions 0) ∧
      (∃ found, ofDocument document' = .ok found ∧
        found.records = (slot.fill region'.content.toList).regions 0) ∧
      document = (slot.fill region.content.toList).text ∧
      document' = (slot.fill region'.content.toList).text ∧
      (slot.fill region.content.toList).Proper ∧ (slot.fill region'.content.toList).Proper ∧
      (slot.fill region.content.toList).names.Nodup := by
  obtain ⟨found, hfound, hregion⟩ := h.accepted
  obtain ⟨found', hfound', hregion'⟩ := h.accepted'
  obtain ⟨slot, hproper, hnodup, hdocument, hrecords, hname, hrange⟩ :=
    Slot.exists_fill hfound hregion h.terminated
  obtain ⟨slot', hproper', -, hdocument', -, hname', hrange'⟩ :=
    Slot.exists_fill hfound' hregion' h.terminated'
  have hfront : slot.front = takeBytes region.contentRange.start document := by
    rw [hrange, hdocument, Slot.takeBytes_front]
  have hfront' : slot'.front = takeBytes region'.contentRange.start document' := by
    rw [hrange', hdocument', Slot.takeBytes_front]
  have hback : slot.back = dropBytes region.contentRange.stop document := by
    rw [hrange, hdocument, Slot.dropBytes_back]
  have hback' : slot'.back = dropBytes region'.contentRange.stop document' := by
    rw [hrange', hdocument', Slot.dropBytes_back]
  have hfill : (slot.fill region'.content.toList).Proper :=
    Slot.proper_fill_of hproper hproper' (by rw [hname, hname', h.name_eq, h.name_eq'])
  have htext : document' = (slot.fill region'.content.toList).text := by
    rw [hdocument', Slot.text_fill, Slot.text_fill, hfront, hfront', hback, hback', h.front_eq,
      h.back_eq]
  have hnodup' : (slot.fill region'.content.toList).names.Nodup := by
    rw [Slot.names_fill] at hnodup ⊢
    exact hnodup
  exact ⟨slot, hname.trans h.name_eq, hfront, ⟨found, hfound, hrecords⟩,
    htext ▸ Layout.ofDocument_text hfill hnodup', hdocument, htext, hproper, hfill, hnodup⟩

theorem Region.Exchanged.agree {name : String} {document document' : Text}
    {region region' : Region} (h : Exchanged name document document' region region')
    (halike : Slot.Alike
      (Fence.after none (pieces (takeBytes region.contentRange.start document)))
      region.content.toList region'.content.toList) :
    (Model.ofDocument document).1.Agree (Model.ofDocument document').1 := by
  obtain ⟨slot, -, hfront, -, -, hdocument, hdocument', hproper, hproper', -⟩ := h.exists_slot
  rw [← hfront] at halike
  apply Model.agree_of_shown
  rw [hdocument, hdocument']
  exact Slot.shown_fill_eq hproper hproper' halike

namespace Engine

theorem process_eq_of_flaw {engine : Engine} {flaw : Config.Flaw}
    (h : engine.config.flaw? = some flaw) (request : Request) (source : String) :
    engine.process request source = .error (.config flaw) := by
  rw [process, h]

/-- What stood in the region of a diagram that is made anew comes through only in what readers make
of the document, and in the fence that it leaves open. -/
theorem process_eq_of_agree (config : Config) (consult : Consult) {request : Request}
    (hstrict : request.strict = false) {kind : Kind} {source source' : String}
    {region region' : Region}
    (hexchanged : Region.Exchanged kind.name source.toList source'.toList region region')
    (hagree : (Model.ofDocument source.toList).1.Agree (Model.ofDocument source'.toList).1)
    (hfence : Fence.after
        (Fence.after none (pieces (takeBytes region.contentRange.start source.toList)))
          (pieces region.content.toList) =
      Fence.after (Fence.after none (pieces (takeBytes region.contentRange.start source.toList)))
        (pieces region'.content.toList))
    (hgenerated : ∃ diagram ∈ (standard config consult).generate request
      (Model.ofDocument source.toList).1, diagram.kind = kind) (hflaw : config.flaw? = none) :
    ∃ text,
      ((standard config consult).process request source).map Report.updated = .ok (some text) ∧
      ((standard config consult).process request source').map Report.updated = .ok (some text) := by
  let engine := standard config consult
  obtain ⟨slot, hname, hfront, ⟨found, hfound, hrecords⟩, ⟨found', hfound', hrecords'⟩, hsource,
    hsource', hproper, hproper', hnodup⟩ := hexchanged.exists_slot
  have hjudged : engine.judged request (Model.ofDocument source.toList).1 =
      engine.judged request (Model.ofDocument source'.toList).1 := by
    rw [judged, judged, generate_agree hagree]
  have hbehind : slot.fenceBehind region.content.toList =
      slot.fenceBehind region'.content.toList := by
    rw [Slot.fenceBehind, Slot.fenceBehind, hfront, hfence]
  obtain ⟨diagram, hdiagram, rfl⟩ := hgenerated
  have hmem : engine.validate request diagram ∈
      engine.judged request (Model.ofDocument source.toList).1 := List.mem_map_of_mem hdiagram
  have hsame := Slot.text_ofDiagrams_eq hproper hproper' hbehind hnodup engine.config.anchor
    (nodup_kinds_judged _) hmem hname.symm
  rw [← hrecords, ← hrecords', ← hsource, ← hsource'] at hsame
  have hsound : engine.config.flaw? = none := hflaw
  obtain ⟨report, hreport, -, -, -, hupdated⟩ := process_of_not_strict hsound hstrict hfound
  obtain ⟨report', hreport', -, -, -, hupdated'⟩ := process_of_not_strict hsound hstrict hfound'
  rw [← hjudged, ← hsame, ← hupdated] at hupdated'
  exact ⟨_, by rw [hreport, Except.map, hupdated],
    by rw [hreport', Except.map, hupdated', hupdated]⟩

/-- What stood in the region of a diagram that is made anew does not count, as long as it shows
readers the same. -/
theorem process_ignores_content (config : Config) (consult : Consult) (request : Request)
    (hstrict : request.strict = false) (kind : Kind) {source source' : String}
    {region region' : Region}
    (hexchanged : Region.Exchanged kind.name source.toList source'.toList region region')
    (halike : Slot.Alike
      (Fence.after none (pieces (takeBytes region.contentRange.start source.toList)))
      region.content.toList region'.content.toList)
    (hgenerated : ∃ diagram ∈ (standard config consult).generate request
      (Model.ofDocument source.toList).1, diagram.kind = kind) :
    let engine := standard config consult
    (engine.process request source).map Report.updated =
        (engine.process request source').map Report.updated ∧
      (config.flaw? = none → ∃ text,
        (engine.process request source).map Report.updated = .ok (some text)) := by
  intro engine
  cases hflaw : config.flaw? with
  | some flaw =>
    have hrefused : engine.config.flaw? = some flaw := hflaw
    rw [process_eq_of_flaw hrefused, process_eq_of_flaw hrefused]
    exact ⟨rfl, fun hnone => absurd hnone (by simp)⟩
  | none =>
    obtain ⟨text, htext, htext'⟩ := process_eq_of_agree config consult hstrict hexchanged
      (hexchanged.agree halike) halike.fence_eq hgenerated hflaw
    exact ⟨htext.trans htext'.symm, fun _ => ⟨text, htext⟩⟩

set_option maxRecDepth 100000 in
/-- An outdated diagram and an empty region. -/
theorem process_ignores_content_outdated :
    let engine := standard .standard fun _ _ => .accepted
    let request : Request := ⟨some .entityRelationship, false⟩
    let head :=
      "# Key Entities\n- **A**: x\n<!-- specgram:begin section=\"entity-relationship\" -->\n"
    let block := "```mermaid\nerDiagram\n    OLD\n```\n"
    let tail := "<!-- specgram:end section=\"entity-relationship\" -->\n- **B**: y\n"
    let region : Region := ⟨"entity-relationship", ⟨26, 165⟩, ⟨80, 113⟩, block, true⟩
    let region' : Region := ⟨"entity-relationship", ⟨26, 132⟩, ⟨80, 80⟩, "", true⟩
    request.strict = false ∧
      Region.Exchanged Kind.entityRelationship.name (head ++ block ++ tail).toList
        (head ++ tail).toList region region' ∧
      Slot.Alike (Fence.after none (pieces (takeBytes region.contentRange.start
        (head ++ block ++ tail).toList))) region.content.toList region'.content.toList ∧
      (∃ diagram ∈ engine.generate request
        (Model.ofDocument (head ++ block ++ tail).toList).1,
          diagram.kind = .entityRelationship) ∧
      Config.standard.flaw? = none ∧
      (engine.process request (head ++ block ++ tail)).map Report.updated =
        (engine.process request (head ++ tail)).map Report.updated ∧
      ∃ text, (engine.process request (head ++ block ++ tail)).map Report.updated =
        .ok (some text) := by
  intro engine request head block tail region region'
  have hhead : head.toList = _ := String.toList_ofList
  have hblock : block.toList = _ := String.toList_ofList
  have htail : tail.toList = _ := String.toList_ofList
  have hfound : (Region.ofDocument (head ++ block ++ tail).toList).toOption.map
      Findings.records = some [region] := by
    simp only [String.toList_append, hhead, hblock, htail]
    decide +kernel
  have hfound' : (Region.ofDocument (head ++ tail).toList).toOption.map Findings.records =
      some [region'] := by
    simp only [String.toList_append, hhead, htail]
    decide +kernel
  obtain ⟨found, hfound, hrecords⟩ := Region.exists_found hfound
  obtain ⟨found', hfound', hrecords'⟩ := Region.exists_found hfound'
  have hfront : takeBytes region.contentRange.start (head ++ block ++ tail).toList =
      head.toList := by
    simp only [String.toList_append, hhead, hblock, htail]
    decide +kernel
  have hexchanged : Region.Exchanged Kind.entityRelationship.name
      (head ++ block ++ tail).toList (head ++ tail).toList region region' := by
    refine ⟨⟨found, hfound, by simp [hrecords]⟩, ⟨found', hfound', by simp [hrecords']⟩, rfl,
      rfl, rfl, rfl, ?_, ?_⟩
    · simp only [String.toList_append, hhead, hblock, htail]
      decide +kernel
    · simp only [String.toList_append, hhead, hblock, htail]
      decide +kernel
  have halike : Slot.Alike (Fence.after none (pieces (takeBytes region.contentRange.start
      (head ++ block ++ tail).toList))) region.content.toList region'.content.toList := by
    rw [hfront, show region.content.toList = block.toList from rfl, hhead, hblock]
    exact ⟨by decide +kernel, by decide +kernel⟩
  have hgenerated : ∃ diagram ∈ engine.generate request
      (Model.ofDocument (head ++ block ++ tail).toList).1, diagram.kind = .entityRelationship := by
    simp only [String.toList_append, hhead, hblock, htail]
    decide +kernel
  have hsame := process_ignores_content .standard (fun _ _ => .accepted) request rfl
    .entityRelationship hexchanged halike hgenerated
  exact ⟨rfl, hexchanged, halike, hgenerated, Config.flaw?_standard, hsame.1,
    hsame.2 Config.flaw?_standard⟩

set_option maxRecDepth 100000 in
/-- A fence that is left open in the region hides the entities behind it. -/
theorem process_reads_content :
    let engine := standard .standard fun _ _ => .accepted
    let request : Request := ⟨some .entityRelationship, false⟩
    let head :=
      "# Key Entities\n- **A**: x\n<!-- specgram:begin section=\"entity-relationship\" -->\n"
    let tail := "<!-- specgram:end section=\"entity-relationship\" -->\n- **B**: y\n"
    let region : Region := ⟨"entity-relationship", ⟨26, 136⟩, ⟨80, 84⟩, "~~~\n", true⟩
    let region' : Region := ⟨"entity-relationship", ⟨26, 132⟩, ⟨80, 80⟩, "", true⟩
    Region.Exchanged Kind.entityRelationship.name (head ++ "~~~\n" ++ tail).toList
        (head ++ tail).toList region region' ∧
      (∀ line ∈ Line.scan region.content.toList, Marker.parse? line.text = none) ∧
      (∀ line ∈ Line.scan region'.content.toList, Marker.parse? line.text = none) ∧
      (∃ diagram ∈ engine.generate request (Model.ofDocument (head ++ "~~~\n" ++ tail).toList).1,
        diagram.kind = .entityRelationship) ∧
      (∃ diagram ∈ engine.generate request (Model.ofDocument (head ++ tail).toList).1,
        diagram.kind = .entityRelationship) ∧
      (engine.process request (head ++ "~~~\n" ++ tail)).map Report.updated ≠
        (engine.process request (head ++ tail)).map Report.updated := by
  intro engine request head tail region region'
  have hhead : head.toList = _ := String.toList_ofList
  have htail : tail.toList = _ := String.toList_ofList
  have hfound : (Region.ofDocument (head ++ "~~~\n" ++ tail).toList).toOption.map
      Findings.records = some [region] := by
    simp only [String.toList_append, hhead, htail]
    decide +kernel
  have hfound' : (Region.ofDocument (head ++ tail).toList).toOption.map Findings.records =
      some [region'] := by
    simp only [String.toList_append, hhead, htail]
    decide +kernel
  obtain ⟨found, hfound, hrecords⟩ := Region.exists_found hfound
  obtain ⟨found', hfound', hrecords'⟩ := Region.exists_found hfound'
  refine ⟨⟨⟨found, hfound, by simp [hrecords]⟩, ⟨found', hfound', by simp [hrecords']⟩, rfl, rfl,
    rfl, rfl, ?_, ?_⟩, ?_, ?_, ?_, ?_, ?_⟩
  · simp only [String.toList_append, hhead, htail]
    decide +kernel
  · simp only [String.toList_append, hhead, htail]
    decide +kernel
  · decide
  · decide
  · simp only [String.toList_append, hhead, htail]
    decide +kernel
  · simp only [String.toList_append, hhead, htail]
    decide +kernel
  · have hflaw : engine.config.flaw? = none := Config.flaw?_standard
    have hstrict : request.strict = false := rfl
    obtain ⟨report, hreport, -, -, -, hupdated⟩ := process_of_not_strict hflaw hstrict hfound
    obtain ⟨report', hreport', -, -, -, hupdated'⟩ := process_of_not_strict hflaw hstrict hfound'
    rw [hreport, hreport', Except.map, Except.map, hupdated, hupdated', hrecords, hrecords']
    simp only [String.toList_append, hhead, htail]
    intro hsame
    have htexts := String.ofList_injective (Option.some.inj (Except.ok.inj hsame))
    revert htexts
    decide +kernel

end Engine

end DiagramSync
