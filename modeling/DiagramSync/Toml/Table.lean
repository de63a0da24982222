import DiagramSync.Config.Tree

/-!
Tables in the making. How a table came about decides which statements may add
to it.
-/

namespace DiagramSync.Toml

inductive Origin where
  /-- It lies on the way to a table with a header. -/
  | implied
  /-- It has a header of its own, or is the whole. -/
  | declared
  /-- It lies on the way to the value of a dotted key, whatever else leads to it. -/
  | dotted
  deriving Repr, DecidableEq

inductive Node where
  | value (tree : Tree)
  | table (origin : Origin) (entries : List (String × Node))
  /-- Tables with a header of double brackets each; only the last one can be added to. -/
  | series (earlier : List Tree) (last : List (String × Node))
  deriving Repr

abbrev Entries := List (String × Node)

namespace Node

mutual

def toTree : Node → Tree
  | .value tree => tree
  | .table _ entries => .table (entryTrees entries)
  | .series earlier last => .list (earlier ++ [.table (entryTrees last)])

def entryTrees : List (String × Node) → List (String × Tree)
  | [] => []
  | (key, node) :: rest => (key, node.toTree) :: entryTrees rest

end

end Node

namespace Entries

def toTree (entries : Entries) : Tree :=
  .table (Node.entryTrees entries)

def set (key : String) (node : Node) : Entries → Entries
  | [] => [(key, node)]
  | (other, old) :: rest =>
    if other = key then (key, node) :: rest else (other, old) :: set key node rest

abbrev Change := Origin → Entries → Option (Origin × Entries)

/-- Changes the table at the end of a path. Tables that do not exist come about
with the origin `made`. The path of a dotted key may not lead through a table
with a header of its own, and makes the others on it such that none can get one. -/
def changeAt (made : Origin) (change : Change) : List String → Change
  | [], origin, entries => change origin entries
  | key :: path, origin, entries =>
    match entries.lookup key with
    | none => do
      let (childOrigin, child) ← changeAt made change path made []
      return (origin, entries.set key (.table childOrigin child))
    | some (.table childOrigin child) =>
      if made = .dotted ∧ childOrigin = .declared then none
      else do
        let reached := if made = .dotted then .dotted else childOrigin
        let (childOrigin, child) ← changeAt made change path reached child
        return (origin, entries.set key (.table childOrigin child))
    | some (.series earlier last) => do
      let (_, last) ← changeAt made change path .declared last
      return (origin, entries.set key (.series earlier last))
    | some (.value _) => none

/-- A table takes either the values of dotted keys or those of plain keys. -/
def addValue (isDotted : Bool) (key : String) (value : Tree) : Change := fun origin entries =>
  if (origin == .dotted) != isDotted then none
  else
    match entries.lookup key with
    | none => some (origin, entries.set key (.value value))
    | some _ => none

def addAt (path : List String) (key : String) (value : Tree) : Change :=
  changeAt .dotted (addValue (!path.isEmpty) key value) path

def declare (key : String) : Change := fun origin entries =>
  match entries.lookup key with
  | none => some (origin, entries.set key (.table .declared []))
  | some (.table .implied child) => some (origin, entries.set key (.table .declared child))
  | some _ => none

def declareNext (key : String) : Change := fun origin entries =>
  match entries.lookup key with
  | none => some (origin, entries.set key (.series [] []))
  | some (.series earlier last) =>
    some (origin, entries.set key (.series (earlier ++ [Entries.toTree last]) []))
  | some _ => none

end Entries
end DiagramSync.Toml
