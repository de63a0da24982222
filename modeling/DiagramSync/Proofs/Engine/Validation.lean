import DiagramSync.Proofs.Engine.Outcome

/-!
Validation decides whether a document is updated, and never how. The update is made from kinds and
markup alone, and a command has its say in strict runs only, about diagrams whose markup has
passed the check.
-/

namespace DiagramSync

/-! ### Updates -/

namespace Update

theorem ofDiagrams_congr {diagrams diagrams' : List Diagram}
    (h : diagrams'.map (fun diagram => (diagram.kind, diagram.markup)) =
      diagrams.map fun diagram => (diagram.kind, diagram.markup))
    (document : Text) (regions : List Region) (anchor : Kind → Anchor) :
    ofDiagrams document regions anchor diagrams' = ofDiagrams document regions anchor diagrams := by
  have hplans : ∀ diagrams : List Diagram,
      diagrams.map (fun diagram =>
        (diagram.kind, plan document regions (anchor diagram.kind) diagram)) =
      (diagrams.map fun diagram => (diagram.kind, diagram.markup)).map fun (kind, markup) =>
        (kind, plan document regions (anchor kind) ⟨kind, markup, 0, .pass⟩) := by
    intro diagrams
    rw [List.map_map]
    rfl
  rw [ofDiagrams, ofDiagrams, hplans, hplans, h]

end Update

namespace Engine

variable {engine : Engine} {request : Request} {validation : Validation} {consult : Consult}

/-! ### Engines that differ in validation -/

/-- The engine with other settings for validation and another answer of commands. -/
def validatedBy (engine : Engine) (validation : Validation) (consult : Consult) : Engine :=
  { engine with config := { engine.config with validation }, consult }

theorem anchor_validatedBy :
    (engine.validatedBy validation consult).config.anchor = engine.config.anchor := by
  funext kind
  cases kind <;> rfl

theorem map_judged {α : Type} {f : Diagram → α}
    (h : ∀ (diagram : Diagram) (verdict : Verdict), f (diagram.judge verdict) = f diagram)
    (engine : Engine) (request : Request) (model : Model) :
    (engine.judged request model).map f = (engine.generate request model).map f := by
  rw [judged, List.map_map]
  exact List.map_congr_left fun diagram _ => h diagram _

/-! ### Reports without verdicts -/

theorem report_of_not_aborted {source : String} {found : Findings Region}
    (h : (engine.report request source found).stage ≠ .aborted) :
    let diagrams := engine.judged request (Model.ofDocument source.toList).1
    let update := Update.ofDiagrams source.toList found.records engine.config.anchor diagrams
    (engine.report request source found).source = source ∧
      (engine.report request source found).updated = some (String.ofList update.text) ∧
      (engine.report request source found).diagrams =
        diagrams.map fun diagram => summarize (update.outcome? diagram.kind) diagram := by
  intro diagrams update
  have hdiagrams : (engine.generate request (Model.ofDocument source.toList).1).map
      (engine.validate request) = diagrams := rfl
  simp only [report, hdiagrams] at h ⊢
  cases hrejected : rejected request.strict diagrams with
  | nil => exact ⟨rfl, rfl, rfl⟩
  | cons kind kinds => simp [hrejected] at h

/-- What a report says about the text: how it should be, whether it is out of date and what becomes
of the region of each diagram. -/
def textual (report : Report) : Option String × Bool × List (Kind × Nat × Option RegionOutcome) :=
  (report.updated, report.isOutOfDate,
    report.diagrams.map fun outcome => (outcome.kind, outcome.nodeCount, outcome.region))

theorem textual_report {source : String} {found : Findings Region}
    (h : (engine.report request source found).stage ≠ .aborted) :
    let diagrams := engine.generate request (Model.ofDocument source.toList).1
    let update := Update.ofDiagrams source.toList found.records engine.config.anchor diagrams
    textual (engine.report request source found) =
      (some (String.ofList update.text), String.ofList update.text != source,
        diagrams.map fun diagram =>
          (diagram.kind, diagram.nodeCount, update.outcome? diagram.kind)) := by
  intro diagrams update
  have hupdate : Update.ofDiagrams source.toList found.records engine.config.anchor
      (engine.judged request (Model.ofDocument source.toList).1) = update :=
    Update.ofDiagrams_congr (map_judged (fun _ _ => rfl) engine request _) _ _ _
  obtain ⟨hsource, hupdated, hdiagrams⟩ := report_of_not_aborted h
  rw [hupdate] at hupdated hdiagrams
  rw [textual, Report.isOutOfDate, hupdated, hsource, hdiagrams, List.map_map,
    ← map_judged (fun _ _ => rfl) engine request (Model.ofDocument source.toList).1]
  rfl

/-! ### Runs that are not strict -/

theorem stage_of_not_strict (h : request.strict = false) (source : String)
    (found : Findings Region) : (engine.report request source found).stage ≠ .aborted := by
  obtain ⟨-, -, -, -, ⟨hrejects, -⟩ | ⟨-, hstage, -⟩⟩ := report_cases engine request source found
  · rw [Rejects, h] at hrejects
    exact absurd hrejects.1 Bool.false_ne_true
  · simp [hstage]

theorem externalVerdict_of_not_strict (validation : Validation) (consult : Consult)
    (diagram : Diagram) : validation.externalVerdict consult false diagram = .pass := rfl

theorem report_validatedBy (h : request.strict = false) (source : String)
    (found : Findings Region) :
    (engine.validatedBy validation consult).report request source found =
      engine.report request source found := by
  have hvalidate : (engine.validatedBy validation consult).validate request =
      engine.validate request := by
    funext diagram
    rw [validate, validate, Validation.validate, Validation.validate, h,
      externalVerdict_of_not_strict, externalVerdict_of_not_strict]
  rw [report, report, anchor_validatedBy, hvalidate]
  rfl

/-! ### Consultations -/

/-- The verdict on a diagram depends on what the command answers. -/
def Consults (engine : Engine) (request : Request) (diagram : Diagram) : Prop :=
  ∃ consult, engine.validate request diagram ≠
    { engine with consult }.validate request diagram

/-- Each answer differs in its verdict from one of these two: that the markup is accepted, and
that it is refused. -/
theorem exists_verdictOf_ne (command : ValidatorCommand) (verdict : Verdict) :
    ∃ answer, verdict ≠ Validation.verdictOf command answer := by
  by_cases haccepted : verdict = .pass
  · refine ⟨.refused "" "", fun hrefused => ?_⟩
    have herrors := congrArg Verdict.errors (haccepted.symm.trans hrefused)
    contradiction
  · exact ⟨.accepted, haccepted⟩

theorem consulted?_eq_some_iff {strict : Bool} {diagram : Diagram} {command : ValidatorCommand} :
    validation.consulted? strict diagram = some command ↔
      strict = true ∧ validation.command? = some command ∧
        (Markup.check diagram.kind diagram.markup).errors = [] := by
  rw [Validation.consulted?, Validation.reachesCommand, Verdict.passed]
  cases strict <;> simp [and_comm]

theorem combine_left_cancel {first second second' : Verdict}
    (h : first.combine second = first.combine second') : second = second' := by
  cases second
  cases second'
  simpa [Verdict.combine] using h

/-- A command is asked about a diagram if and only if its answer shows in the verdict. -/
theorem consults_iff {diagram : Diagram} :
    engine.Consults request diagram ↔
      (engine.config.validation.consulted? request.strict diagram).isSome = true := by
  constructor
  · rintro ⟨consult, hne⟩
    by_contra hnone
    rw [Bool.not_eq_true, Option.isSome_eq_false_iff, Option.isNone_iff_eq_none] at hnone
    refine hne ?_
    simp only [validate, Validation.validate, Validation.externalVerdict, hnone]
  · intro hsome
    obtain ⟨command, hcommand⟩ := Option.isSome_iff_exists.mp hsome
    obtain ⟨answer, hanswer⟩ := exists_verdictOf_ne command
      (Validation.verdictOf command (engine.consult command diagram.markup))
    refine ⟨fun _ _ => answer, fun heq => hanswer ?_⟩
    have hverdict := combine_left_cancel (combine_left_cancel (congrArg Diagram.verdict heq))
    simpa only [Validation.externalVerdict, hcommand] using hverdict

/-- Validation never changes the text. A strict run that is not aborted says the same about the
text, whether it is out of date and what becomes of each region as a run that is not strict, and
runs that are not strict have the same report, whatever the settings for validation are and
whatever commands answer. A strict run asks the command about a diagram if and only if there is a
command and the markup has no fault. -/
theorem process_ignores_validation (engine : Engine) (validation : Validation) (consult : Consult)
    (hconfig : engine.config.flaw? = none)
    (hconfig' : (engine.validatedBy validation consult).config.flaw? = none) (kind : Option Kind)
    (source : String) :
    (∀ report, engine.process ⟨kind, true⟩ source = .ok report → report.stage ≠ .aborted →
      ∃ relaxed, (engine.validatedBy validation consult).process ⟨kind, false⟩ source =
        .ok relaxed ∧ textual report = textual relaxed) ∧
    engine.process ⟨kind, false⟩ source =
      (engine.validatedBy validation consult).process ⟨kind, false⟩ source ∧
    ∀ diagram ∈ engine.generate ⟨kind, true⟩ (Model.ofDocument source.toList).1,
      (engine.Consults ⟨kind, true⟩ diagram ↔
        engine.config.validation.command.isSome = true ∧
          (Markup.check diagram.kind diagram.markup).errors = []) ∧
      ∀ command, engine.config.validation.consulted? true diagram = some command ↔
        engine.config.validation.command? = some command ∧
          (Markup.check diagram.kind diagram.markup).errors = [] := by
  rw [process, process, process, hconfig, hconfig']
  refine ⟨?_, ?_, fun diagram _ => ⟨?_, fun command => ?_⟩⟩
  · intro report hreport hstage
    cases hfound : Region.ofDocument source.toList with
    | error diagnostics => simp [hfound] at hreport
    | ok found =>
      rw [hfound] at hreport
      obtain rfl := Except.ok.inj hreport
      refine ⟨_, rfl, ?_⟩
      rw [textual_report hstage, textual_report (stage_of_not_strict rfl source found),
        anchor_validatedBy]
      rfl
  · cases Region.ofDocument source.toList with
    | error diagnostics => rfl
    | ok found => exact congrArg Except.ok (report_validatedBy rfl source found).symm
  · rw [consults_iff, Option.isSome_iff_exists]
    simp [consulted?_eq_some_iff, Validation.command?, Option.isSome_iff_exists]
  · rw [consulted?_eq_some_iff]
    simp

/-- A command that does not answer is worth a warning in the strict run, and no more. -/
theorem process_ignores_validation_unavailable :
    let drawn : Diagram := ⟨.journey, "flowchart TD\n    a --> b\n", 2, .pass⟩
    let engine := (standard { Config.standard with
      validation := ⟨some "mmdc", [], 40⟩ } fun _ _ => .timedOut).withSynthesis .journey
        fun _ => some drawn
    let other := engine.validatedBy ⟨none, [], 5000⟩ fun _ _ => .accepted
    engine.config.flaw? = none ∧ other.config.flaw? = none ∧
      ∃ report relaxed, engine.process ⟨none, true⟩ "# Notes\n" = .ok report ∧
        report.stage = .validated ∧ report.warns = true ∧
        other.process ⟨none, false⟩ "# Notes\n" = .ok relaxed ∧ relaxed.warns = false ∧
        textual report = textual relaxed ∧ engine.Consults ⟨none, true⟩ drawn := by
  intro drawn engine other
  have hflaw : engine.config.flaw? = none := Config.flaw?_standard
  have hflaw' : other.config.flaw? = none := Config.flaw?_standard
  have hfound : Region.ofDocument "# Notes\n".toList = .ok .empty := rfl
  have hreport : engine.process ⟨none, true⟩ "# Notes\n" =
      .ok (engine.report ⟨none, true⟩ "# Notes\n" .empty) := by
    rw [process, hflaw, hfound]
  have hstage : (engine.report ⟨none, true⟩ "# Notes\n" .empty).stage = .validated := by
    decide +kernel
  obtain ⟨hstrict, -, hconsults⟩ := process_ignores_validation engine ⟨none, [], 5000⟩
    (fun _ _ => .accepted) hflaw hflaw' none "# Notes\n"
  obtain ⟨relaxed, hrelaxed, htextual⟩ := hstrict _ hreport (by rw [hstage]; decide)
  have hmade : drawn ∈ engine.generate ⟨none, true⟩ (Model.ofDocument "# Notes\n".toList).1 := by
    decide +kernel
  refine ⟨hflaw, hflaw', _, relaxed, hreport, hstage, by decide +kernel, hrelaxed, ?_, htextual,
    (hconsults drawn hmade).1.mpr (by decide +kernel)⟩
  rw [process, hflaw', hfound] at hrelaxed
  obtain rfl := Except.ok.inj hrelaxed
  decide +kernel

end Engine

end DiagramSync
