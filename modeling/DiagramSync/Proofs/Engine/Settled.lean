import DiagramSync.Proofs.Entity.Padding
import DiagramSync.Proofs.Story.Padding
import DiagramSync.Proofs.Update.Padding
import DiagramSync.Proofs.Update.Settled

/-!
What a run settles: a document without regions gets its diagrams in one run, and another run on
the updated document reads the same model from it and changes nothing.
-/

namespace DiagramSync

open Text

/-! ### Reading -/

namespace Model

/-- The two models agree on everything that diagrams tell. -/
structure Agree (model model' : Model) : Prop where
  stories : model.stories.map Story.unplaced = model'.stories.map Story.unplaced
  entities : model.entities = model'.entities
  entitySectionFound : model.entitySectionFound = model'.entitySectionFound

theorem agree_of_read {document document' : Text}
    (hstories : (Story.ofDocument document).unplaced Story.unplaced =
      (Story.ofDocument document').unplaced Story.unplaced)
    (hentities : (Entity.ofDocument? document).map (Findings.unplaced id) =
      (Entity.ofDocument? document').map (Findings.unplaced id)) :
    (ofDocument document).1.Agree (ofDocument document').1 := by
  refine ⟨congrArg Findings.records hstories, ?_, ?_⟩
  · simp only [ofDocument]
    cases hfound : Entity.ofDocument? document <;> cases hfound' : Entity.ofDocument? document' <;>
      simp_all [Findings.unplaced]
  · have hsome := congrArg Option.isSome hentities
    simpa [ofDocument] using hsome

theorem agree_of_padded {ended : Prop} {document document' : Text}
    (h : Padded ended (Line.scan document) (Line.scan document')) :
    (ofDocument document).1.Agree (ofDocument document').1 :=
  agree_of_read (Story.collect_padded h rfl none) (Entity.map_ofSection_padded h)

end Model

namespace Engine

variable {config : Config} {consult : Consult} {request : Request}

@[simp] theorem synthesize_standard :
    (standard config consult).synthesize = standardSynthesis config := rfl

theorem standardSynthesis_agree {model model' : Model} (h : model.Agree model') (kind : Kind) :
    standardSynthesis config kind model = standardSynthesis config kind model' := by
  cases kind with
  | journey =>
    rw [standardSynthesis, standardSynthesis, ← Journey.diagram?_unplaced, h.stories,
      Journey.diagram?_unplaced]
  | entityRelationship =>
    rw [standardSynthesis, standardSynthesis, h.entities, h.entitySectionFound]

theorem generate_agree {model model' : Model} (h : model.Agree model') :
    (standard config consult).generate request model =
      (standard config consult).generate request model' := by
  unfold generate
  congr 1
  funext kind
  exact standardSynthesis_agree h kind

theorem leaveOut_agree {model model' : Model} (h : model.Agree model') :
    (standard config consult).leaveOut request model =
      (standard config consult).leaveOut request model' := by
  have hwhy : ∀ kind, whyOmitted kind model = whyOmitted kind model' := by
    intro kind
    cases kind with
    | journey => rfl
    | entityRelationship => rw [whyOmitted, whyOmitted, h.entitySectionFound]
  unfold leaveOut
  congr 1
  funext kind
  rw [hwhy, synthesize_standard, standardSynthesis_agree h]

/-! ### Diagrams -/

theorem of_mem_generate {model : Model} {diagram : Diagram}
    (h : diagram ∈ (standard config consult).generate request model) :
    standardSynthesis config diagram.kind model = some diagram ∧ diagram.Plain := by
  obtain ⟨kind, -, hsynthesis⟩ := List.mem_filterMap.mp h
  obtain ⟨rfl, hplain⟩ := plain_standardSynthesis hsynthesis
  exact ⟨hsynthesis, hplain⟩

theorem nodup_kinds_generate (model : Model) :
    (((standard config consult).generate request model).map Diagram.kind).Nodup := by
  have hkinds : request.kinds.Nodup := List.Nodup.filter _ (by decide : Kind.all.Nodup)
  rw [List.Nodup, List.pairwise_map, generate, List.pairwise_filterMap]
  apply hkinds.imp
  intro kind kind' hne diagram hdiagram diagram' hdiagram'
  rw [(plain_standardSynthesis hdiagram).1, (plain_standardSynthesis hdiagram').1]
  exact hne

/-- The diagrams of a document with the verdicts on them. -/
def judged (engine : Engine) (request : Request) (model : Model) : List Diagram :=
  (engine.generate request model).map (engine.validate request)

theorem plain_of_mem_judged {model : Model} {diagram : Diagram}
    (h : diagram ∈ (standard config consult).judged request model) : diagram.Plain := by
  obtain ⟨generated, hgenerated, rfl⟩ := List.mem_map.mp h
  exact (of_mem_generate hgenerated).2

theorem nodup_kinds_judged (model : Model) :
    (((standard config consult).judged request model).map Diagram.kind).Nodup := by
  rw [judged, List.map_map]
  exact nodup_kinds_generate model

/-! ### Reports -/

theorem process_of_not_strict {engine : Engine} (hconfig : engine.config.flaw? = none)
    (hstrict : request.strict = false) {source : String} {found : Findings Region}
    (hfound : Region.ofDocument source.toList = .ok found) :
    let model := (Model.ofDocument source.toList).1
    let diagrams := engine.judged request model
    let update := Update.ofDiagrams source.toList found.records engine.config.anchor diagrams
    ∃ report, engine.process request source = .ok report ∧
      report.source = source ∧ report.omissions = engine.leaveOut request model ∧
      report.diagrams =
        diagrams.map (fun diagram => summarize (update.outcome? diagram.kind) diagram) ∧
      report.updated = some (String.ofList update.text) := by
  intro model diagrams update
  refine ⟨engine.report request source found, ?_, ?_⟩
  · rw [process, hconfig, hfound]
  · simp [report, rejected, hstrict, model, diagrams, update, judged]

theorem outcome?_of_unchanged {diagrams : List Diagram} {diagram : Diagram}
    (h : diagram ∈ diagrams) (text : Text) :
    Update.outcome? ⟨text, diagrams.map fun diagram => (diagram.kind, .unchanged)⟩ diagram.kind =
      some .unchanged :=
  Update.lookup_kind_of_mem h fun _ _ _ => rfl

/-- A run that is not strict on a document without begin markers, whose headings are all in the
first column, leaves a document that needs no other: a second run with the same settings makes
the same diagrams, leaves out the same kinds, finds every region unchanged and gives back the
document as it is. -/
theorem process_settles (config : Config) (hconfig : config.flaw? = none) (consult : Consult)
    (request : Request) (hstrict : request.strict = false) (source : String)
    (hmarkers : ∀ line ∈ Line.scan source.toList, ∀ marker ∈ Marker.parse? line.text,
      marker.side ≠ .begins)
    (hcolumn : ∀ line ∈ Line.scan source.toList, (Heading.ofLine? line).isSome = true →
      line.beginsIndented = false) :
    let engine := standard config consult
    ∃ first updated, engine.process request source = .ok first ∧ first.updated = some updated ∧
      ∃ second, engine.process request updated = .ok second ∧
        second.omissions = first.omissions ∧
        engine.generate request (Model.ofDocument updated.toList).1 =
          engine.generate request (Model.ofDocument source.toList).1 ∧
        second.diagrams =
          first.diagrams.map (fun outcome => { outcome with region := some .unchanged }) ∧
        second.isOutOfDate = false ∧ second.updated = some updated := by
  intro engine
  have hflaw : engine.config.flaw? = none := hconfig
  obtain ⟨found, hfound, hrecords⟩ := Region.ofDocument_of_no_begins hmarkers
  obtain ⟨first, hfirst, -, homissions, hdiagrams, hupdated⟩ :=
    process_of_not_strict hflaw hstrict hfound
  rw [hrecords] at hdiagrams hupdated
  let model := (Model.ofDocument source.toList).1
  let diagrams := engine.judged request model
  let update := Update.ofDiagrams source.toList [] config.anchor diagrams
  have hplain : ∀ diagram ∈ diagrams, diagram.Plain := fun _ => plain_of_mem_judged
  -- The second run reads the same model.
  have hagree : model.Agree (Model.ofDocument update.text).1 := by
    apply Model.agree_of_padded
    exact Update.padded_ofDiagrams (fun line hline => hcolumn line hline.1 hline.2) _ hplain
  have hgenerate : engine.generate request (Model.ofDocument update.text).1 =
      engine.generate request model := (generate_agree hagree).symm
  have hjudged : engine.judged request (Model.ofDocument update.text).1 = diagrams := by
    rw [judged, hgenerate]
    rfl
  -- It finds the regions that the first run has put in.
  obtain ⟨found', hfound', hregions⟩ := Update.exists_regions_of_terminated hfound
    (by simp [hrecords]) config.anchor (nodup_kinds_judged model)
    (fun diagram hmem => (hplain diagram hmem).unmarked)
  rw [hrecords] at hfound'
  have hunchanged : Update.ofDiagrams update.text found'.records engine.config.anchor diagrams =
      ⟨update.text, diagrams.map fun diagram => (diagram.kind, .unchanged)⟩ :=
    Update.ofDiagrams_of_holds update.text config.anchor hregions
  have htext : (String.ofList update.text).toList = update.text := String.toList_ofList
  obtain ⟨second, hsecond, hsource, homissions', hdiagrams', hupdated'⟩ :=
    process_of_not_strict hflaw hstrict (htext.symm ▸ hfound')
  rw [htext, hjudged] at hdiagrams' hupdated'
  rw [htext] at homissions'
  rw [hunchanged] at hdiagrams' hupdated'
  refine ⟨first, String.ofList update.text, hfirst, hupdated, second, hsecond, ?_, ?_, ?_, ?_,
    hupdated'⟩
  · rw [homissions, homissions']
    exact (leaveOut_agree hagree).symm
  · rw [htext]
    exact hgenerate
  · rw [hdiagrams, hdiagrams', List.map_map]
    apply List.map_congr_left
    intro diagram hmem
    rw [outcome?_of_unchanged hmem update.text]
    rfl
  · rw [Report.isOutOfDate, hupdated', hsource]
    simp

/-- The document ends inside of a code block. -/
theorem process_settles_unclosed :
    let engine := standard .standard fun _ _ => .accepted
    let request : Request := ⟨none, false⟩
    let source := "# Shop\n\n### Key Entities\n\n- **Basket**: Holds items.\n\n~~~\nopen"
    Config.standard.flaw? = none ∧ request.strict = false ∧
      (∀ line ∈ Line.scan source.toList, ∀ marker ∈ Marker.parse? line.text,
        marker.side ≠ .begins) ∧
      (∀ line ∈ Line.scan source.toList, (Heading.ofLine? line).isSome = true →
        line.beginsIndented = false) ∧
      ∃ first updated, engine.process request source = .ok first ∧
        first.updated = some updated ∧
        ∃ second, engine.process request updated = .ok second ∧
          second.isOutOfDate = false ∧ second.updated = some updated := by
  intro engine request source
  have hmarkers : ∀ line ∈ Line.scan source.toList, ∀ marker ∈ Marker.parse? line.text,
      marker.side ≠ .begins := by decide
  have hcolumn : ∀ line ∈ Line.scan source.toList, (Heading.ofLine? line).isSome = true →
      line.beginsIndented = false := by decide
  obtain ⟨first, updated, hfirst, hupdated, second, hsecond, -, -, -, hcurrent, hagain⟩ :=
    process_settles .standard Config.flaw?_standard (fun _ _ => .accepted) request rfl source
      hmarkers hcolumn
  exact ⟨Config.flaw?_standard, rfl, hmarkers, hcolumn, first, updated, hfirst, hupdated, second,
    hsecond, hcurrent, hagain⟩

end Engine
end DiagramSync
