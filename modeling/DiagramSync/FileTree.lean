/-!
Trees of files, seen from a working folder: reading, and writing in such a way
that a file is either replaced as a whole or left as it is.
-/

namespace DiagramSync

/-- A place in a tree of files: the names on the way from the root. -/
abbrev Place := List String

inductive FileFailure where
  | notFound
  | isFolder
  | notFolder
  | notText
  /-- The path does not give a name to the file. -/
  | busy
  | tooLong
  | notPath
  deriving Repr, DecidableEq

namespace FileFailure

def text : FileFailure → String
  | .notFound => "no such file or folder"
  | .isFolder => "is a folder"
  | .notFolder => "not a folder"
  | .notText => "content is not valid UTF-8"
  | .busy => "resource busy"
  | .tooLong => "file name too long"
  | .notPath => "file name contained an unexpected NUL byte"

end FileFailure

/-- Files and folders by their places. The root is always a folder. -/
structure FileTree where
  files : List (Place × ByteArray)
  folders : List Place
  here : Place

inductive Lookup where
  | file (place : Place) (content : ByteArray)
  | folder (place : Place)
  | absent (place : Place)
  | failure (cause : FileFailure)

namespace FileTree

/-! ### Paths -/

def names (path : String) : List String :=
  (path.toList.splitOn '/').map String.ofList

def nameLimit : Nat :=
  255

def isNoPath (path : String) : Bool :=
  path.toList.contains '\x00'

def origin (tree : FileTree) (path : String) : Place :=
  if path.toList.head? = some '/' then [] else tree.here

def isFolder (tree : FileTree) (place : Place) : Bool :=
  place.isEmpty || tree.folders.contains place

def follow (tree : FileTree) (place : Place) : List String → Lookup
  | [] => .folder place
  | name :: rest =>
    if name = "" ∨ name = "." then tree.follow place rest
    else if name = ".." then tree.follow place.dropLast rest
    else if nameLimit < name.utf8ByteSize then .failure .tooLong
    else
      let child := place ++ [name]
      match tree.files.lookup child with
      | some content => if rest.isEmpty then .file child content else .failure .notFolder
      | none =>
        if tree.isFolder child then tree.follow child rest
        else if rest.isEmpty then .absent child
        else .failure .notFound

def lookup (tree : FileTree) (path : String) : Lookup :=
  if isNoPath path then .failure .notPath
  else if path = "" then .failure .notFound
  else tree.follow (tree.origin path) (names path)

def holds (tree : FileTree) (path : String) : Bool :=
  match tree.lookup path with
  | .file _ _ | .folder _ => true
  | .absent _ | .failure _ => false

/-! ### Reading -/

def read (tree : FileTree) (path : String) : Except FileFailure String :=
  match tree.lookup path with
  | .file _ content =>
    match String.fromUTF8? content with
    | some text => .ok text
    | none => .error .notText
  | .folder _ => .error .isFolder
  | .absent _ => .error .notFound
  | .failure cause => .error cause

/-! ### Writing -/

def set (tree : FileTree) (place : Place) (content : ByteArray) : FileTree :=
  { tree with files := (place, content) :: tree.files.filter fun file => file.1 ≠ place }

def folderOf : Lookup → Except FileFailure Place
  | .folder place => .ok place
  | .file _ _ => .error .notFolder
  | .absent _ => .error .notFound
  | .failure cause => .error cause

def dropLastWhere (drop : String → Bool) (names : List String) : List String :=
  (names.reverse.dropWhile drop).reverse

/-- The folder in which a file is made before it takes the place of the target:
the one around the last name of the path. -/
def workFolder (tree : FileTree) (path : String) : Except FileFailure Place :=
  if isNoPath path then .error .notPath
  else match dropLastWhere (fun name => name == "" || name == ".") (names path) with
  | [] => .ok tree.here
  | names => folderOf (tree.follow (tree.origin path) names.dropLast)

/-- The place that a file gets which is moved to a path. -/
def target (tree : FileTree) (path : String) : Except FileFailure Place :=
  if path = "" then .error .notFound
  else
    let names := names path
    let named := dropLastWhere (· == "") names
    match named.getLast? with
    | none => .error .busy
    | some name => do
      let folder ← folderOf (tree.follow (tree.origin path) named.dropLast)
      if name = "." ∨ name = ".." then .error .busy
      else if nameLimit < name.utf8ByteSize then .error .tooLong
      else if named.length < names.length then .error .notFolder
      else if tree.isFolder (folder ++ [name]) then .error .isFolder
      else .ok (folder ++ [name])

end FileTree

/-! ### Work on files -/

/-- Work on the files of a tree. What it has changed before it fails stays changed. -/
abbrev FileWork (ε α : Type) :=
  ExceptT ε (StateM FileTree) α

/-- What a system has against files that their paths allow, such as want of room or permission. -/
structure Disk where
  againstDraft : FileTree → Place → Option FileFailure
  againstMove : FileTree → Place → Option FileFailure

def Disk.free : Disk where
  againstDraft _ _ := none
  againstMove _ _ := none

namespace FileWork

variable {ε α : Type}

def on (work : FileWork ε α) (tree : FileTree) : Except ε α × FileTree :=
  work.run.run tree

def result (work : FileWork ε α) (tree : FileTree) : Except ε (α × FileTree) :=
  match work.on tree with
  | (.ok value, after) => .ok (value, after)
  | (.error failure, _) => .error failure

def objectTo (objection : Option FileFailure) : FileWork FileFailure Unit :=
  match objection with
  | some failure => throw failure
  | none => return

/-- Makes a draft with the text beside the target. It is no file of the tree yet. -/
def draft (disk : Disk) (path : String) : FileWork FileFailure Unit := do
  let tree ← get
  let folder ← tree.workFolder path
  objectTo (disk.againstDraft tree folder)

def move (disk : Disk) (path text : String) : FileWork FileFailure Unit := do
  let tree ← get
  let place ← tree.target path
  objectTo (disk.againstMove tree place)
  set (tree.set place text.toUTF8)

/-- Writes a text to a path. The file is complete before it takes the place of
another one, so nothing is changed if that fails. -/
def write (disk : Disk) (path text : String) : FileWork FileFailure Unit := do
  draft disk path
  move disk path text

end FileWork
end DiagramSync
