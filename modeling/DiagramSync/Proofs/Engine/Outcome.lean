import DiagramSync.Proofs.Engine.Settled
import DiagramSync.Proofs.Engine.Warnings

/-!
How a run ends: with which report, for whatever synthesizers and validator command the engine
has.
-/

namespace DiagramSync

/-! ### Verdicts -/

namespace Consultation

end Consultation

namespace Validation

end Validation

/-! ### Diagrams -/

namespace Engine

variable {engine : Engine} {request : Request} {model : Model}

/-- Each synthesizer answers with diagrams of its own kind. -/
def KeepsKinds (engine : Engine) : Prop :=
  ∀ kind model diagram, engine.synthesize kind model = some diagram → diagram.kind = kind

theorem KeepsKinds.withSynthesis (h : engine.KeepsKinds) {kind : Kind}
    {synthesize : Model → Option Diagram}
    (hkind : ∀ model, ∀ diagram ∈ synthesize model, diagram.kind = kind) :
    (engine.withSynthesis kind synthesize).KeepsKinds := by
  intro other model diagram hsynthesis
  simp only [Engine.withSynthesis] at hsynthesis
  split at hsynthesis
  · exact (hkind model diagram hsynthesis).trans (Eq.symm ‹_›)
  · exact h other model diagram hsynthesis

theorem rejected_eq_nil {strict : Bool} {diagrams : List Diagram} :
    rejected strict diagrams = [] ↔
      ¬(strict = true ∧ ∃ diagram ∈ diagrams, diagram.verdict.errors ≠ []) := by
  cases strict with
  | false => simp [rejected]
  | true => simp [rejected, Verdict.passed, List.filter_eq_nil_iff]

/-! ### Findings -/

theorem isSome_outcome?_ofDiagrams {document : Text} {regions : List Region}
    {anchor : Kind → Anchor} {diagrams : List Diagram} {diagram : Diagram}
    (h : diagram ∈ diagrams) :
    ((Update.ofDiagrams document regions anchor diagrams).outcome? diagram.kind).isSome = true := by
  rw [Option.isSome_iff_ne_none, Ne, Update.outcome?, List.lookup_eq_none_iff]
  intro hnone
  have hmem : (diagram.kind, (Update.plan document regions (anchor diagram.kind) diagram).1) ∈
      (Update.ofDiagrams document regions anchor diagrams).outcomes := by
    simp only [Update.ofDiagrams, List.map_map]
    exact List.mem_map.mpr ⟨diagram, h, rfl⟩
  simpa using hnone _ hmem

/-- A diagram keeps a strict run from going on. -/
def Rejects (request : Request) (diagrams : List Diagram) : Prop :=
  request.strict = true ∧ ∃ diagram ∈ diagrams, diagram.verdict.errors ≠ []

/-- All that a report can be: one that stops at the verdicts, or one that goes on to the update. -/
theorem report_cases (engine : Engine) (request : Request) (source : String)
    (found : Findings Region) :
    let model := Model.ofDocument source.toList
    let diagrams := engine.judged request model.1
    let report := engine.report request source found
    report.omissions = engine.leaveOut request model.1 ∧
      report.diagnostics = found.diagnostics ++ model.2 ++
        diagrams.flatMap (verdictDiagnostics request.strict) ∧
      ∃ region : Diagram → Option RegionOutcome,
        report.diagrams = diagrams.map (fun diagram => summarize (region diagram) diagram) ∧
        ((Rejects request diagrams ∧ report.stage = .aborted ∧ report.updated = none ∧
            ∀ diagram ∈ diagrams, region diagram = none) ∨
          (¬ Rejects request diagrams ∧ report.stage = .validated ∧
            report.updated.isSome = true ∧
            ∀ diagram ∈ diagrams, (region diagram).isSome = true)) := by
  intro model diagrams report
  have hdiagrams : (engine.generate request (Model.ofDocument source.toList).1).map
      (engine.validate request) = diagrams := rfl
  simp only [report, Engine.report, hdiagrams]
  cases hrejected : rejected request.strict diagrams with
  | nil =>
    have haccepts : ¬ Rejects request diagrams := rejected_eq_nil.mp hrejected
    exact ⟨rfl, rfl, _, rfl, .inr ⟨haccepts, rfl, rfl, fun _ => isSome_outcome?_ofDiagrams⟩⟩
  | cons kind kinds =>
    have hrejects : Rejects request diagrams := by
      by_contra haccepts
      simp [rejected_eq_nil.mpr haccepts] at hrejected
    exact ⟨rfl, rfl, fun _ => none, rfl, .inl ⟨hrejects, rfl, rfl, fun _ _ => rfl⟩⟩

end Engine
end DiagramSync
