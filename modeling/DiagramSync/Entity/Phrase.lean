import DiagramSync.Entity.Basic
import DiagramSync.Text.Basic

/-!
The fixed words from which relationships and attribute types are read.
-/

namespace DiagramSync

structure Phrase where
  text : String
  cardinality : Cardinality
  deriving Repr, DecidableEq

namespace Phrase

def label (phrase : Phrase) : String :=
  String.ofList (phrase.text.toList.map fun c => if c == '-' then ' ' else c)

/-- All phrases, longest first, so that a phrase comes before every other one it
begins with. -/
def all : List Phrase :=
  [⟨"has and belongs to many", .manyToMany⟩, ⟨"contains multiple", .oneToMany⟩,
   ⟨"has zero or more", .oneToMany⟩, ⟨"has one or more", .oneToMany⟩,
   ⟨"has exactly one", .oneToOne⟩, ⟨"belongs to many", .manyToMany⟩,
   ⟨"contains many", .oneToMany⟩, ⟨"has a single", .oneToOne⟩,
   ⟨"has multiple", .oneToMany⟩, ⟨"many-to-many", .manyToMany⟩,
   ⟨"many to many", .manyToMany⟩, ⟨"is owned by", .manyToOne⟩,
   ⟨"one-to-many", .oneToMany⟩, ⟨"one to many", .oneToMany⟩,
   ⟨"many-to-one", .manyToOne⟩, ⟨"many to one", .manyToOne⟩,
   ⟨"belongs to", .manyToOne⟩, ⟨"one-to-one", .oneToOne⟩,
   ⟨"one to one", .oneToOne⟩, ⟨"belong to", .manyToOne⟩,
   ⟨"owns many", .oneToMany⟩, ⟨"have many", .oneToMany⟩,
   ⟨"has many", .oneToMany⟩, ⟨"has one", .oneToOne⟩]

theorem all_longest_first :
    all.Pairwise fun first second => second.text.length ≤ first.text.length := by
  decide

def fillers : List String :=
  ["a", "an", "the", "one", "many", "multiple", "several", "single", "exactly", "each", "other",
   "with", "to", "of", "relationship"]

def fillerLimit : Nat := 3

def isFiller (word : Text) : Bool :=
  fillers.any fun filler => Text.equalsNoCase filler.toList word

end Phrase

namespace Attribute

def knownTypes : List String :=
  ["string", "text", "int", "integer", "bigint", "float", "double", "decimal", "number", "bool",
   "boolean", "date", "datetime", "timestamp", "time", "uuid", "json", "enum", "bytes", "binary",
   "money", "email", "url"]

def isKnownType (declared : Text) : Bool :=
  let base := (Text.stripSuffix? "[]".toList declared).getD declared
  knownTypes.any fun type => Text.equalsNoCase type.toList base

end Attribute
end DiagramSync
