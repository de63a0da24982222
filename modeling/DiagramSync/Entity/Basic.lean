/-!
Entities of a data model, their attributes and the relationships between them.
-/

namespace DiagramSync

/-- How many of each other two entities have to do with, read from source to target. -/
inductive Cardinality where
  | oneToOne
  | oneToMany
  | manyToOne
  | manyToMany
  deriving Repr, DecidableEq

namespace Cardinality

def all : List Cardinality :=
  [.oneToOne, .oneToMany, .manyToOne, .manyToMany]

def text : Cardinality → String
  | .oneToOne => "one-to-one"
  | .oneToMany => "one-to-many"
  | .manyToOne => "many-to-one"
  | .manyToMany => "many-to-many"

def token : Cardinality → String
  | .oneToOne => "||--||"
  | .oneToMany => "||--o\x7b"
  | .manyToOne => "\x7do--||"
  | .manyToMany => "\x7do--o\x7b"

def ofToken? (token : String) : Option Cardinality :=
  all.find? fun cardinality => cardinality.token == token

def ofText? (text : String) : Option Cardinality :=
  all.find? fun cardinality => cardinality.text == text

@[simp] theorem ofToken?_token (cardinality : Cardinality) :
    ofToken? cardinality.token = some cardinality := by
  cases cardinality <;> decide

@[simp] theorem ofText?_text (cardinality : Cardinality) :
    ofText? cardinality.text = some cardinality := by
  cases cardinality <;> decide

end Cardinality

structure Attribute where
  name : String
  type : String
  isPrimaryKey : Bool
  isForeignKey : Bool
  deriving Repr, DecidableEq

structure Relationship where
  source : String
  target : String
  cardinality : Cardinality
  label : String
  deriving Repr, DecidableEq

namespace Relationship

def equivalent (first second : Relationship) : Bool :=
  first.source == second.source && first.target == second.target &&
    first.cardinality == second.cardinality

end Relationship

structure Entity where
  name : String
  description : String
  attributes : List Attribute
  relationships : List Relationship
  deriving Repr, DecidableEq

namespace Entity

def accepts (entity : Entity) (relationship : Relationship) : Bool :=
  !entity.relationships.any fun known => known.equivalent relationship

/-- Adds a relationship unless the entity has one that says the same: the first
label stays. -/
def relate (entity : Entity) (relationship : Relationship) : Entity :=
  if entity.accepts relationship then
    { entity with relationships := entity.relationships ++ [relationship] }
  else
    entity

def primaryKey? (entity : Entity) : Option Attribute :=
  entity.attributes.find? Attribute.isPrimaryKey

end Entity
end DiagramSync
