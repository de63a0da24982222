import DiagramSync.Diagram.Basic
import DiagramSync.Diagram.Label
import DiagramSync.Entity.Basic

/-!
Entity-relationship diagrams: the entities with their attributes, and below
them the relationships between them.
-/

namespace DiagramSync
namespace DataModel

/-! ### Entities -/

def isMarkupChar (brackets : Bool) (c : Char) : Bool :=
  Label.isIdChar c || (brackets && (c == '[' || c == ']'))

/-- A word as markup takes it: other characters become `_`, and a `_` goes in
front of what is neither a letter nor a `_`. -/
def word (brackets : Bool) (text : String) : String :=
  let cs := text.toList.map fun c => if isMarkupChar brackets c then c else '_'
  String.ofList <|
    match cs with
    | [] => ['_']
    | c :: _ => if c.isAlpha || c == '_' then cs else '_' :: cs

def keyMarks (attr : Attribute) : String :=
  match attr.isPrimaryKey, attr.isForeignKey with
  | true, true => " PK, FK"
  | true, false => " PK"
  | false, true => " FK"
  | false, false => ""

def attributeLine (attr : Attribute) : String :=
  "        " ++ word true attr.type ++ " " ++ word false attr.name ++ keyMarks attr

def entityLines (id : String) (attributes : List Attribute) : List String :=
  match attributes with
  | [] => ["    " ++ id]
  | attributes => ["    " ++ id ++ " \x7b"] ++ attributes.map attributeLine ++ ["    \x7d"]

/-! ### Relationships -/

/-- The identifier of a name. Where a name occurs more than once, the last one counts. -/
def idOf? (ids : List (String × String)) (name : String) : Option String :=
  ids.reverse.lookup name

def relationshipLine? (ids : List (String × String)) (relationship : Relationship) :
    Option String := do
  let source ← idOf? ids relationship.source
  let target ← idOf? ids relationship.target
  return "    " ++ source ++ " " ++ relationship.cardinality.token ++ " " ++ target ++ " : \"" ++
    Label.escape relationship.label ++ "\""

/-! ### Diagrams -/

def lines (entities : List Entity) : List String :=
  let names := entities.map Entity.name
  let ids := Label.identifiers names
  "erDiagram" ::
    ((ids.zip entities).flatMap fun (id, entity) => entityLines id entity.attributes) ++
    (entities.flatMap fun entity =>
      entity.relationships.filterMap (relationshipLine? (names.zip ids)))

def tooLarge (count limit : Nat) : String :=
  s!"entity-relationship diagram has {count} entities (limit {limit}); " ++
    "consider splitting the data model"

def render (limits : Limits) (entities : List Entity) : Diagram where
  kind := .entityRelationship
  markup := String.join ((lines entities).map fun line => line ++ "\n")
  nodeCount := entities.length
  verdict :=
    .ofWarnings
      (if limits.hard < entities.length then [tooLarge entities.length limits.hard] else [])

def diagram? (limits : Limits) (sectionFound : Bool) (entities : List Entity) : Option Diagram :=
  if !sectionFound || entities.isEmpty then none else some (render limits entities)

end DataModel
end DiagramSync
