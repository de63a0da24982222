import DiagramSync.Entity.Entry
import DiagramSync.Entity.Mention

/-!
The entities of a document: the entries of its first entity section, with the
attributes declared and the relationships mentioned in their text. Reading
never fails; what cannot be used is left out with a warning.
-/

namespace DiagramSync
namespace Entity

/-! ### Findings -/

def warning (entry : EntityEntry) (code : Code) (message help : String) : Diagnostic where
  severity := .warning
  code := some code
  message
  labels := [⟨entry.span, "entity defined here", true⟩]
  help := some help

def duplicateAttribute (entry : EntityEntry) (name : String) : Diagnostic :=
  warning entry .duplicateAttribute
    s!"attribute `{name}` of entity `{entry.name}` is declared more than once"
    "the later declaration is ignored"

def multiplePrimaryKeys (entry : EntityEntry) (name : String) : Diagnostic :=
  warning entry .multiplePrimaryKeys
    s!"entity `{entry.name}` declares more than one primary key"
    s!"`{name}` is kept as a plain attribute"

def unresolvedTarget (entry : EntityEntry) (phrase : Phrase) (reference : String) : Diagnostic :=
  warning entry .unresolvedTarget
    s!"entity `{entry.name}`: `{phrase.text} {reference}` does not name a known entity"
    "relationships are only drawn to entities listed in this section"

def conflictingCardinalities (entry : EntityEntry) (target : String) : Diagnostic :=
  warning entry .conflictingCardinalities
    s!"conflicting cardinalities between `{entry.name}` and `{target}`"
    "no relationship is drawn for this pair"

/-! ### Attributes -/

def namesPrimaryKey (declaration : Declaration) : Bool :=
  declaration.mark == some .primary || declaration.name == "id".toList

def namesForeignKey (declaration : Declaration) : Bool :=
  declaration.mark == some .foreign ||
    (!namesPrimaryKey declaration && Text.endsWith "_id".toList declaration.name)

def attributeOf (declaration : Declaration) (isPrimaryKey : Bool) : Attribute where
  name := String.ofList declaration.name
  type := String.ofList declaration.type
  isPrimaryKey
  isForeignKey := namesForeignKey declaration

/-- The attributes that the declarations left stand for, given the names declared
so far and whether a primary key is among them. The first declaration of a name
and the first primary key count. -/
def declare (entry : EntityEntry) (names : List Text) (hasPrimaryKey : Bool) :
    List Declaration → Findings Attribute
  | [] => .empty
  | declaration :: rest =>
    let isPrimaryKey := namesPrimaryKey declaration
    let name := String.ofList declaration.name
    let seen := names ++ [declaration.name]
    if names.contains declaration.name then
      (declare entry names hasPrimaryKey rest).warn (duplicateAttribute entry name)
    else if isPrimaryKey && hasPrimaryKey then
      ((declare entry seen hasPrimaryKey rest).cons (attributeOf declaration false)).warn
        (multiplePrimaryKeys entry name)
    else
      (declare entry seen (hasPrimaryKey || isPrimaryKey) rest).cons
        (attributeOf declaration isPrimaryKey)

def declaredIn (entry : EntityEntry) : Findings Attribute :=
  declare entry [] false (Declaration.all entry.body)

/-! ### Relationships -/

def targets (mentions : List Mention) : List String :=
  (mentions.filterMap fun
    | .resolved target _ => some target
    | .unresolved .. => none).eraseDups

def phrasesFor (target : String) (mentions : List Mention) : List Phrase :=
  mentions.filterMap fun
    | .resolved name phrase => if name = target then some phrase else none
    | .unresolved .. => none

def relationshipTo (entry : EntityEntry) (target : String) :
    List Phrase → Findings Relationship
  | [] => .empty
  | first :: others =>
    if others.all fun phrase => phrase.cardinality == first.cardinality then
      ⟨[⟨entry.name, target, first.cardinality, first.label⟩], []⟩
    else
      ⟨[], [conflictingCardinalities entry target]⟩

def unresolvedWarnings (entry : EntityEntry) (mentions : List Mention) : List Diagnostic :=
  mentions.filterMap fun
    | .resolved .. => none
    | .unresolved phrase reference => some (unresolvedTarget entry phrase reference)

def statedIn (entry : EntityEntry) (known : List String) : Findings Relationship :=
  let mentions := Mention.all known entry.body
  let drawn := (targets mentions).map fun target =>
    relationshipTo entry target (phrasesFor target mentions)
  ⟨drawn.flatMap Findings.records,
    unresolvedWarnings entry mentions ++ drawn.flatMap Findings.diagnostics⟩

/-! ### Entities -/

/-- Names in the order in which they are tried: long ones first, and names of
one size as they are listed. -/
def bySize (names : List String) : List String :=
  names.mergeSort fun first second => second.utf8ByteSize ≤ first.utf8ByteSize

def ofEntry (known : List String) (entry : EntityEntry) : Findings Entity :=
  let attributes := declaredIn entry
  let relationships := statedIn entry known
  ⟨[⟨entry.name, entry.description, attributes.records, relationships.records⟩],
    attributes.diagnostics ++ relationships.diagnostics⟩

def ofEntries (entries : List EntityEntry) : Findings Entity :=
  let known := bySize (entries.map EntityEntry.name)
  let described := entries.map (ofEntry known)
  ⟨described.flatMap Findings.records, described.flatMap Findings.diagnostics⟩

def ofSection (lines : List Line) : Findings Entity :=
  let entries := EntityEntry.ofSection lines
  let entities := ofEntries entries.records
  ⟨entities.records, entries.diagnostics ++ entities.diagnostics⟩

def ofDocument? (document : Text) : Option (Findings Entity) :=
  (EntityEntry.section? (Line.scan document)).map ofSection

end Entity
end DiagramSync
