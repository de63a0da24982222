import DiagramSync.Config.Tree
import DiagramSync.FileTree
import DiagramSync.Toml.Document

/-!
Where settings come from: a file that is asked for, else one in the working
folder, else one where programs keep their settings, else the standard settings.
-/

namespace DiagramSync

inductive ConfigTrouble where
  /-- The settings that a run is given cannot be used. -/
  | flawed (flaw : Config.Flaw)
  | missing (path : String)
  | malformed (path : String)
  /-- The settings of the file cannot be used. -/
  | invalid (path : String) (flaw : Config.Flaw)
  deriving Repr, DecidableEq

namespace ConfigTrouble

def message : ConfigTrouble → String
  | .flawed flaw => flaw.message
  | .missing path => s!"Missing configuration file: {path}"
  | .malformed path => s!"Failed to parse TOML configuration {path}"
  | .invalid path flaw => s!"Invalid configuration {path}: {flaw.message}"

end ConfigTrouble

namespace Config

def ofToml? (text : String) : Option Config :=
  (Toml.parse? text.toList).bind (ofTree? .toml)

def localPath : String :=
  "specgram/config.toml"

def sharedPath (configHome : String) : String :=
  s!"{configHome}/specgram/config.toml"

def sourcePath? (tree : FileTree) (configHome : String) (asked : Option String) : Option String :=
  match asked with
  | some path => some path
  | none => [localPath, sharedPath configHome].find? tree.holds

inductive LoadFailure where
  | file (failure : FileFailure)
  | config (trouble : ConfigTrouble)
  deriving Repr, DecidableEq

section Load

variable (read? : String → Option Config)

def loadFile (tree : FileTree) (path : String) : Except LoadFailure Config :=
  if !tree.holds path then .error (.config (.missing path))
  else
    match tree.read path with
    | .error failure => .error (.file failure)
    | .ok text =>
      match read? text with
      | none => .error (.config (.malformed path))
      | some config =>
        match config.flaw? with
        | some flaw => .error (.config (.invalid path flaw))
        | none => .ok config

def load (tree : FileTree) (configHome : String) (asked : Option String) :
    Except LoadFailure Config :=
  match sourcePath? tree configHome asked with
  | some path => loadFile read? tree path
  | none => .ok standard

end Load

end Config
end DiagramSync
