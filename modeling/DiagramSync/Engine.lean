import DiagramSync.Diagram.DataModel
import DiagramSync.Diagram.Journey
import DiagramSync.Entity.OfDocument
import DiagramSync.Report
import DiagramSync.Story.OfDocument
import DiagramSync.Validator.Basic

/-!
The engine: reads a document, makes the diagrams that are asked for, validates
them and says how the document should be. Nothing is read or written.
-/

namespace DiagramSync

structure Model where
  stories : List Story
  entities : List Entity
  /-- Set if the document has an entity section, even an empty one. -/
  entitySectionFound : Bool
  deriving Repr, DecidableEq

namespace Model

def ofDocument (document : Text) : Model × List Diagnostic :=
  let stories := Story.ofDocument document
  let entities := Entity.ofDocument? document
  let found := entities.getD .empty
  (⟨stories.records, found.records, entities.isSome⟩, stories.diagnostics ++ found.diagnostics)

end Model

structure Request where
  /-- The one kind to make a diagram of; all kinds if there is none. -/
  kind : Option Kind
  /-- Set to consult the validator command and to abort on any error. -/
  strict : Bool
  deriving Repr, DecidableEq

namespace Request

def includes (request : Request) (kind : Kind) : Bool :=
  request.kind.isNone || request.kind == some kind

def kinds (request : Request) : List Kind :=
  Kind.all.filter request.includes

end Request

inductive ProcessFailure where
  | config (flaw : Config.Flaw)
  | markers (diagnostics : List Diagnostic)
  deriving Repr, DecidableEq

structure Engine where
  config : Config
  synthesize : Kind → Model → Option Diagram
  consult : Consult

namespace Engine

def standardSynthesis (config : Config) : Kind → Model → Option Diagram
  | .journey, model => Journey.diagram? config.journey model.stories
  | .entityRelationship, model =>
    DataModel.diagram? config.relationship model.entitySectionFound model.entities

def standard (config : Config) (consult : Consult) : Engine where
  config
  synthesize := standardSynthesis config
  consult

def withSynthesis (engine : Engine) (kind : Kind) (synthesize : Model → Option Diagram) : Engine :=
  { engine with
    synthesize := fun other => if other = kind then synthesize else engine.synthesize other }

def whyOmitted (kind : Kind) (model : Model) : String :=
  match kind with
  | .journey => "no user stories found"
  | .entityRelationship =>
    if model.entitySectionFound then "key entities section lists no entities"
    else "no key entities section"

def generate (engine : Engine) (request : Request) (model : Model) : List Diagram :=
  request.kinds.filterMap fun kind => engine.synthesize kind model

def leaveOut (engine : Engine) (request : Request) (model : Model) : List Omission :=
  request.kinds.filterMap fun kind =>
    match engine.synthesize kind model with
    | some _ => none
    | none => some ⟨kind, whyOmitted kind model⟩

def validate (engine : Engine) (request : Request) (diagram : Diagram) : Diagram :=
  diagram.judge (engine.config.validation.validate engine.consult request.strict diagram)

/-- The findings about a diagram. Errors are warnings unless the run is strict. -/
def verdictDiagnostics (strict : Bool) (diagram : Diagram) : List Diagnostic :=
  let severity := if strict then Severity.error else .warning
  (diagram.verdict.warnings.map fun warning =>
      .plain .warning s!"{diagram.kind.name} diagram: {warning}") ++
    (diagram.verdict.errors.map fun error =>
      .plain severity s!"{diagram.kind.name} diagram: {error}")

def rejected (strict : Bool) (diagrams : List Diagram) : List Kind :=
  if strict then (diagrams.filter fun diagram => !diagram.verdict.passed).map Diagram.kind else []

def summarize (region : Option RegionOutcome) (diagram : Diagram) : DiagramOutcome :=
  ⟨diagram.kind, diagram.nodeCount, region, diagram.verdict⟩

def report (engine : Engine) (request : Request) (source : String) (regions : Findings Region) :
    Report :=
  let document := source.toList
  let (model, modelDiagnostics) := Model.ofDocument document
  let diagrams := (engine.generate request model).map (engine.validate request)
  let omissions := engine.leaveOut request model
  let diagnostics :=
    regions.diagnostics ++ modelDiagnostics ++
      diagrams.flatMap (verdictDiagnostics request.strict)
  match rejected request.strict diagrams with
  | [] =>
    let update := Update.ofDiagrams document regions.records engine.config.anchor diagrams
    { stage := .validated
      diagrams := diagrams.map fun diagram => summarize (update.outcome? diagram.kind) diagram
      omissions
      diagnostics
      source
      updated := some (String.ofList update.text)
      written := none
      abortReason := none }
  | kinds =>
    { stage := .aborted
      diagrams := diagrams.map (summarize none)
      omissions
      diagnostics
      source
      updated := none
      written := none
      abortReason := some (", ".intercalate (kinds.map Kind.name) ++ " failed validation") }

def process (engine : Engine) (request : Request) (source : String) :
    Except ProcessFailure Report :=
  match engine.config.flaw? with
  | some flaw => .error (.config flaw)
  | none =>
    match Region.ofDocument source.toList with
    | .error diagnostics => .error (.markers diagnostics)
    | .ok regions => .ok (engine.report request source regions)

end Engine
end DiagramSync
