import DiagramSync.CommandLine.Program

/-!
The program on real files. The files that a run may look at are read first, the
program is evaluated on them, and the files that it leaves are written.
-/

namespace DiagramSync.Main

def pathOf (place : Place) : String :=
  "/" ++ "/".intercalate place

def loadPlace (tree : FileTree) (place : Place) : IO FileTree := do
  let path := (← IO.currentDir) / pathOf place
  if ← path.isDir then
    return { tree with folders := tree.folders ++ [place] }
  else if ← path.pathExists then
    return tree.set place (← IO.FS.readBinFile path)
  else
    return tree

def placesOn (place : Place) : List String → List Place
  | [] => []
  | name :: rest =>
    let next :=
      if name = "" ∨ name = "." then place
      else if name = ".." then place.dropLast
      else place ++ [name]
    next :: placesOn next rest

def loadPath (tree : FileTree) (path : String) : IO FileTree :=
  (placesOn (tree.origin path) (FileTree.names path)).foldlM loadPlace tree

/-- Writes the files that another tree does not hold in the same way. A file is
complete before it takes the place of the old one. -/
def store (before after : FileTree) : IO Unit :=
  after.files.forM fun (place, content) => do
    if before.files.lookup place != some content then
      let path := pathOf place
      let draft := path ++ ".draft"
      IO.FS.writeBinFile draft content
      IO.FS.rename draft path

def configHome : IO String := do
  match ← IO.getEnv "XDG_CONFIG_HOME" with
  | some path => if path.startsWith "/" then return path else fallback
  | none => fallback
where
  fallback : IO String := do
    return (← IO.getEnv "HOME").getD "" ++ "/.config"

def pathsOf (arguments : List String) (configHome : String) : List String :=
  match Arguments.parse arguments with
  | .ok arguments =>
    [arguments.input] ++ arguments.output.toList ++ arguments.config.toList ++
      [Config.localPath, Config.sharedPath configHome]
  | .error _ => []

def run (arguments : List String) : IO UInt32 := do
  let here := (FileTree.names (← IO.currentDir).toString).filter fun name => name != ""
  let configHome ← configHome
  let folders := (List.range (here.length + 1)).map fun count => here.take count
  let tree ← (pathsOf arguments configHome).foldlM loadPath ⟨[], folders, here⟩
  let outcome := Program.run arguments tree configHome
  store tree outcome.tree
  IO.print outcome.out
  IO.eprint outcome.err
  return UInt32.ofNat outcome.exitStatus

end DiagramSync.Main

def main (arguments : List String) : IO UInt32 :=
  DiagramSync.Main.run arguments
