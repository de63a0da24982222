import DiagramSync.Config.Basic

/-!
Settings as data: a tree of tables, lists and plain values, as a settings file
gives it, and the settings that are read from it.

A table may leave entries out, which then have their standard values, and hold
others, which are passed over. A list stands for the table whose entries it
gives in their order.
-/

namespace DiagramSync

inductive Tree where
  | null
  | flag (value : Bool)
  | integer (value : Int)
  | real (written : String)
  /-- A number out of all bounds, as written. No value can be read from it. -/
  | unbounded (written : String)
  | text (value : String)
  | moment (written : String)
  | list (items : List Tree)
  | table (entries : List (String × Tree))
  deriving Repr, Inhabited

inductive DataFormat where
  | toml
  | json
  deriving Repr, DecidableEq

namespace Tree

mutual

def isReadable : Tree → Bool
  | .unbounded _ => false
  | .list items => areReadable items
  | .table entries => entriesAreReadable entries
  | _ => true

def areReadable : List Tree → Bool
  | [] => true
  | item :: rest => item.isReadable && areReadable rest

def entriesAreReadable : List (String × Tree) → Bool
  | [] => true
  | (_, tree) :: rest => tree.isReadable && entriesAreReadable rest

end

/-- The entries of a table whose keys are `keys` in their order. Entries with other
keys have to be readable. JSON has no list with more items than there are keys; in
TOML the items left over are not looked at. A moment is a table with none of the keys. -/
def entries? (format : DataFormat) (keys : List String) : Tree → Option (List (String × Tree))
  | .table entries =>
    if entries.all fun (key, tree) => keys.contains key || tree.isReadable then some entries
    else none
  | .list items =>
    if format = .toml ∨ items.length ≤ keys.length then some (keys.zip items) else none
  | .moment _ => some []
  | _ => none

def entryOr {α : Type} (fallback : α) (read? : Tree → Option α) (entries : List (String × Tree))
    (key : String) : Option α :=
  match entries.lookup key with
  | some tree => read? tree
  | none => some fallback

def count? : Tree → Option Nat
  | .integer n => if 0 ≤ n ∧ n < 18446744073709551616 then some n.toNat else none
  | _ => none

def text? : Tree → Option String
  | .text value => some value
  | _ => none

def texts? : Tree → Option (List String)
  | .list items => items.mapM text?
  | _ => none

def nullableText? : Tree → Option (Option String)
  | .null => some none
  | .text value => some (some value)
  | _ => none

/-- Returns `true` for what stands behind a name to which nothing belongs: `null` in
JSON, a list or a table that is empty in TOML. -/
def isNothing (format : DataFormat) : Tree → Bool
  | .null => format == .json
  | .list [] | .table [] => format == .toml
  | _ => false

/-- A name, alone or as the only key of a table with nothing behind it. -/
def name? (format : DataFormat) : Tree → Option String
  | .text name => some name
  | .table [(name, content)] => if content.isNothing format then some name else none
  | _ => none

end Tree

namespace Config

/-! ### Parts of the settings -/

def limits? (format : DataFormat) (softKey hardKey : String) (fallback : Limits) (tree : Tree) :
    Option Limits := do
  let entries ← tree.entries? format [softKey, hardKey]
  let soft ← Tree.entryOr fallback.soft Tree.count? entries softKey
  let hard ← Tree.entryOr fallback.hard Tree.count? entries hardKey
  return ⟨soft, hard⟩

def placement? (format : DataFormat) (tree : Tree) : Option Placement := do
  match ← tree.name? format with
  | "end_of_section" => some .endOfSection
  | "after_heading" => some .afterHeading
  | _ => none

def anchor? (format : DataFormat) (tree : Tree) : Option Anchor := do
  let entries ← tree.entries? format ["heading", "placement"]
  let heading ← (entries.lookup "heading").bind Tree.text?
  let placement ← Tree.entryOr .endOfSection (placement? format) entries "placement"
  return ⟨heading, placement⟩

def anchors? (format : DataFormat) (fallback : Anchor × Anchor) (tree : Tree) :
    Option (Anchor × Anchor) := do
  let entries ← tree.entries? format ["journey", "entity_relationship"]
  let journey ← Tree.entryOr fallback.1 (anchor? format) entries "journey"
  let relationship ← Tree.entryOr fallback.2 (anchor? format) entries "entity_relationship"
  return (journey, relationship)

def validation? (format : DataFormat) (fallback : Validation) (tree : Tree) :
    Option Validation := do
  let entries ← tree.entries? format ["command", "args", "timeout_ms"]
  let command ← Tree.entryOr fallback.command Tree.nullableText? entries "command"
  let args ← Tree.entryOr fallback.args Tree.texts? entries "args"
  let timeoutMs ← Tree.entryOr fallback.timeoutMs Tree.count? entries "timeout_ms"
  return ⟨command, args, timeoutMs⟩

/-! ### Settings -/

def ofTree? (format : DataFormat) (tree : Tree) : Option Config := do
  let entries ← tree.entries? format ["journey", "relationship", "anchors", "validation"]
  let journey ←
    Tree.entryOr standard.journey
      (limits? format "soft_node_limit" "hard_node_limit" standard.journey) entries "journey"
  let relationship ←
    Tree.entryOr standard.relationship
      (limits? format "soft_entity_limit" "hard_entity_limit" standard.relationship) entries
      "relationship"
  let standardAnchors := (standard.journeyAnchor, standard.relationshipAnchor)
  let anchors ← Tree.entryOr standardAnchors (anchors? format standardAnchors) entries "anchors"
  let validation ←
    Tree.entryOr standard.validation (validation? format standard.validation) entries
      "validation"
  return {
    journey
    relationship
    journeyAnchor := anchors.1
    relationshipAnchor := anchors.2
    validation }

theorem ofTree?_table_nil (format : DataFormat) :
    ofTree? format (.table []) = some standard := rfl

end Config
end DiagramSync
