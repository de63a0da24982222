import DiagramSync.FileTree

/-!
Paths of a tree that gets another file. A file is found where it was written, by the path it was
written to, and paths that lead elsewhere still do: the walk along a path leads through folders,
and no file takes the place of a folder.
-/

namespace DiagramSync

section Success

variable {ε ε' α β : Type}

theorem exists_of_bind_eq_ok {first : Except ε α} {next : α → Except ε β} {value : β}
    (h : first >>= next = .ok value) : ∃ found, first = .ok found ∧ next found = .ok value := by
  cases first with
  | error failure => contradiction
  | ok found => exact ⟨found, rfl, h⟩

theorem eq_ok_of_mapError_eq_ok {result : Except ε α} {name : ε → ε'} {value : α}
    (h : result.mapError name = .ok value) : result = .ok value := by
  cases result with
  | error failure => contradiction
  | ok found => exact congrArg Except.ok (Except.ok.inj h)

end Success

namespace FileTree

variable {tree : FileTree} {place : Place} {content : ByteArray}

/-! ### Files by their places -/

theorem lookup_files_set_self (tree : FileTree) (place : Place) (content : ByteArray) :
    (tree.set place content).files.lookup place = some content :=
  List.lookup_cons_self

theorem lookup_files_set_of_ne {other : Place} (h : other ≠ place) (tree : FileTree)
    (content : ByteArray) :
    (tree.set place content).files.lookup other = tree.files.lookup other := by
  have hfilter : ∀ files : List (Place × ByteArray),
      (files.filter fun file => file.1 ≠ place).lookup other = files.lookup other := by
    intro files
    induction files with
    | nil => rfl
    | cons file rest ih =>
      by_cases hfile : file.1 = place
      · have hother : (other == file.1) = false := by simpa [hfile] using h
        rw [List.filter_cons_of_neg (by simpa using hfile), ih, List.lookup_cons, hother]
      · rw [List.filter_cons_of_pos (by simpa using hfile), List.lookup_cons, List.lookup_cons, ih]
  have hother : (other == place) = false := by simpa using h
  rw [set, List.lookup_cons, hother]
  exact hfilter tree.files

@[simp] theorem isFolder_set (tree : FileTree) (place : Place) (content : ByteArray)
    (other : Place) : (tree.set place content).isFolder other = tree.isFolder other := rfl

@[simp] theorem origin_set (tree : FileTree) (place : Place) (content : ByteArray)
    (path : String) : (tree.set place content).origin path = tree.origin path := rfl

/-! ### Walks -/

/-- A name that leads on: into another folder or to a file. -/
def IsProperName (name : String) : Prop :=
  ¬(name = "" ∨ name = ".") ∧ name ≠ ".." ∧ ¬ nameLimit < name.utf8ByteSize

/-- Names lead from folder to folder. -/
inductive Leads (tree : FileTree) : Place → List String → Place → Prop
  | done (folder : Place) : Leads tree folder [] folder
  | stay {origin folder : Place} {name : String} {rest : List String}
      (hname : name = "" ∨ name = ".") (hrest : Leads tree origin rest folder) :
      Leads tree origin (name :: rest) folder
  | up {origin folder : Place} {rest : List String}
      (hrest : Leads tree origin.dropLast rest folder) : Leads tree origin (".." :: rest) folder
  | down {origin folder : Place} {name : String} {rest : List String} (hname : IsProperName name)
      (hfile : tree.files.lookup (origin ++ [name]) = none)
      (hfolder : tree.isFolder (origin ++ [name]) = true)
      (hrest : Leads tree (origin ++ [name]) rest folder) : Leads tree origin (name :: rest) folder

variable {origin folder : Place} {names : List String}

theorem follow_cons {name : String} (h : IsProperName name) (rest : List String) :
    tree.follow origin (name :: rest) =
      match tree.files.lookup (origin ++ [name]) with
      | some content =>
        if rest.isEmpty then .file (origin ++ [name]) content else .failure .notFolder
      | none =>
        if tree.isFolder (origin ++ [name]) then tree.follow (origin ++ [name]) rest
        else if rest.isEmpty then .absent (origin ++ [name])
        else .failure .notFound := by
  rw [follow, if_neg h.1, if_neg h.2.1]
  exact if_neg h.2.2

theorem Leads.follow_append (h : tree.Leads origin names folder) (more : List String) :
    tree.follow origin (names ++ more) = tree.follow folder more := by
  induction h with
  | done => rfl
  | stay hname _ ih => rw [List.cons_append, follow, if_pos hname, ih]
  | up _ ih =>
    rw [List.cons_append, follow, if_neg (by decide), if_pos rfl, ih]
  | down hname hfile hfolder _ ih =>
    rw [List.cons_append, follow_cons hname, hfile]
    dsimp only
    rw [if_pos hfolder, ih]

theorem Leads.follow_eq (h : tree.Leads origin names folder) :
    tree.follow origin names = .folder folder := by
  rw [← List.append_nil names, h.follow_append, follow]

/-- How the names of a walk lead to what it finds. The last one leads to a file, and the names
before it to the folder of the file. -/
def Finds (tree : FileTree) (origin : Place) (names : List String) : Lookup → Prop
  | .folder folder => tree.Leads origin names folder
  | .file place content => ∃ before name folder, names = before ++ [name] ∧
      tree.Leads origin before folder ∧ IsProperName name ∧ place = folder ++ [name] ∧
      tree.files.lookup place = some content
  | .absent _ | .failure _ => True

theorem Finds.cons {next : Place} {name : String} {found : Lookup}
    (hstep : ∀ {names folder}, tree.Leads next names folder →
      tree.Leads origin (name :: names) folder)
    (h : tree.Finds next names found) : tree.Finds origin (name :: names) found := by
  cases found with
  | folder => exact hstep h
  | file =>
    obtain ⟨before, last, folder, rfl, hleads, hlast⟩ := h
    exact ⟨name :: before, last, folder, rfl, hstep hleads, hlast⟩
  | absent | failure => trivial

theorem finds_follow (tree : FileTree) (origin : Place) (names : List String) :
    tree.Finds origin names (tree.follow origin names) := by
  induction names generalizing origin with
  | nil => exact .done origin
  | cons name rest ih =>
    by_cases hstay : name = "" ∨ name = "."
    · rw [follow, if_pos hstay]
      exact (ih origin).cons (.stay hstay)
    by_cases hup : name = ".."
    · subst hup
      rw [follow, if_neg hstay, if_pos rfl]
      exact (ih origin.dropLast).cons .up
    by_cases hlong : nameLimit < name.utf8ByteSize
    · rw [follow, if_neg hstay, if_neg hup, if_pos hlong]
      trivial
    have hname : IsProperName name := ⟨hstay, hup, hlong⟩
    rw [follow_cons hname]
    cases hfile : tree.files.lookup (origin ++ [name]) with
    | some content =>
      cases rest with
      | nil => exact ⟨[], name, origin, rfl, .done origin, hname, rfl, hfile⟩
      | cons => trivial
    | none =>
      dsimp only
      split
      · exact (ih (origin ++ [name])).cons (.down hname hfile ‹_›)
      · split <;> trivial

theorem follow_eq_folder_iff :
    tree.follow origin names = .folder folder ↔ tree.Leads origin names folder := by
  refine ⟨fun h => ?_, Leads.follow_eq⟩
  have hfinds := tree.finds_follow origin names
  rwa [h] at hfinds

/-! ### Paths -/

/-- The path leads to a place in a folder, whether there is a file or not. -/
def LeadsTo (tree : FileTree) (path : String) (place : Place) : Prop :=
  ∃ before name folder, FileTree.names path = before ++ [name] ∧
    tree.Leads (tree.origin path) before folder ∧ IsProperName name ∧ place = folder ++ [name]

variable {path : String}

theorem LeadsTo.unique {other : Place} (h : tree.LeadsTo path place)
    (hother : tree.LeadsTo path other) : other = place := by
  obtain ⟨before, name, folder, hnames, hleads, -, rfl⟩ := h
  obtain ⟨before', name', folder', hnames', hleads', -, rfl⟩ := hother
  obtain ⟨rfl, hlast⟩ := List.append_inj' (hnames'.symm.trans hnames) rfl
  obtain rfl := List.singleton_inj.mp hlast
  rw [Lookup.folder.inj (hleads'.follow_eq.symm.trans hleads.follow_eq)]

theorem LeadsTo.ne_empty (h : tree.LeadsTo path place) : path ≠ "" := by
  rintro rfl
  obtain ⟨before, name, folder, hnames, -, hname, -⟩ := h
  have hempty : FileTree.names "" = [] ++ [""] := rfl
  obtain ⟨-, hlast⟩ := List.append_inj' (hempty.symm.trans hnames) rfl
  exact hname.1 (.inl (List.singleton_inj.mp hlast).symm)

theorem lookup_eq_file_iff : tree.lookup path = .file place content ↔
    isNoPath path = false ∧ tree.LeadsTo path place ∧ tree.files.lookup place = some content := by
  constructor
  · intro h
    rw [lookup] at h
    split at h
    · contradiction
    · rename_i hpath
      split at h
      · contradiction
      · have hfinds := tree.finds_follow (tree.origin path) (FileTree.names path)
        rw [h] at hfinds
        obtain ⟨before, name, folder, hnames, hleads, hname, hplace, hfile⟩ := hfinds
        exact ⟨(Bool.not_eq_true _).mp hpath,
          ⟨before, name, folder, hnames, hleads, hname, hplace⟩, hfile⟩
  · rintro ⟨hpath, hleads, hfile⟩
    rw [lookup, hpath, if_neg Bool.false_ne_true, if_neg hleads.ne_empty]
    obtain ⟨before, name, folder, hnames, hleads, hname, rfl⟩ := hleads
    rw [hnames, hleads.follow_append, follow_cons hname, hfile]
    rfl

theorem folderOf_eq_ok_iff {found : Lookup} {folder : Place} :
    folderOf found = .ok folder ↔ found = .folder folder := by
  cases found <;> simp [folderOf]

theorem dropLastWhere_sublist (drop : String → Bool) (names : List String) :
    (dropLastWhere drop names).Sublist names := by
  rw [dropLastWhere, ← List.reverse_sublist, List.reverse_reverse]
  exact List.dropWhile_sublist drop

theorem getLast?_dropLastWhere {drop : String → Bool} {names : List String} {name : String}
    (h : (dropLastWhere drop names).getLast? = some name) : drop name = false := by
  rw [dropLastWhere, List.getLast?_reverse] at h
  have hhead := List.head?_dropWhile_not drop names.reverse
  rwa [h] at hhead

theorem leadsTo_of_target (h : tree.target path = .ok place) :
    tree.LeadsTo path place ∧ tree.isFolder place = false := by
  rw [target] at h
  split at h
  · contradiction
  dsimp only at h
  split at h
  · contradiction
  rename_i name hlast
  obtain ⟨folder, hfolder, h⟩ := exists_of_bind_eq_ok h
  split at h
  · contradiction
  rename_i hdots
  split at h
  · contradiction
  rename_i hlong
  split at h
  · contradiction
  rename_i hwhole
  split at h
  · contradiction
  rename_i hplace
  obtain rfl := Except.ok.inj h
  -- No name is dropped from the end of a path that is written to.
  have hnames : dropLastWhere (· == "") (FileTree.names path) = FileTree.names path :=
    (dropLastWhere_sublist _ _).eq_of_length_le (Nat.le_of_not_lt hwhole)
  have hempty : name ≠ "" := by simpa using getLast?_dropLastWhere hlast
  have hname : IsProperName name :=
    ⟨not_or.mpr ⟨hempty, fun hdot => hdots (.inl hdot)⟩, fun hup => hdots (.inr hup), hlong⟩
  rw [hnames] at hlast hfolder
  obtain ⟨before, hbefore⟩ := List.getLast?_eq_some_iff.mp hlast
  rw [hbefore, List.dropLast_concat] at hfolder
  exact ⟨⟨before, name, folder, hbefore,
    follow_eq_folder_iff.mp (folderOf_eq_ok_iff.mp hfolder), hname, rfl⟩,
    (Bool.not_eq_true _).mp hplace⟩

/-! ### A tree with another file -/

theorem Leads.set (hplace : tree.isFolder place = false) (h : tree.Leads origin names folder)
    (content : ByteArray) : (tree.set place content).Leads origin names folder := by
  induction h with
  | done => exact .done _
  | stay hname _ ih => exact .stay hname ih
  | up _ ih => exact .up ih
  | @down origin _ name _ hname hfile hfolder _ ih =>
    have hne : origin ++ [name] ≠ place := by
      rintro rfl
      rw [hplace] at hfolder
      contradiction
    refine .down hname ?_ ?_ ih
    · rwa [lookup_files_set_of_ne hne]
    · rwa [isFolder_set]

theorem LeadsTo.set {other : Place} (hplace : tree.isFolder place = false)
    (h : tree.LeadsTo path other) (content : ByteArray) :
    (tree.set place content).LeadsTo path other := by
  obtain ⟨before, name, folder, hnames, hleads, hname, hother⟩ := h
  refine ⟨before, name, folder, hnames, ?_, hname, hother⟩
  rw [origin_set]
  exact hleads.set hplace content

theorem lookup_set_target (hpath : isNoPath path = false) (h : tree.target path = .ok place)
    (content : ByteArray) : (tree.set place content).lookup path = .file place content := by
  obtain ⟨hleads, hplace⟩ := leadsTo_of_target h
  exact lookup_eq_file_iff.mpr
    ⟨hpath, hleads.set hplace content, lookup_files_set_self tree place content⟩

theorem lookup_set_of_ne {other : Place} {found : ByteArray} (hplace : tree.isFolder place = false)
    (hne : other ≠ place) (h : tree.lookup path = .file other found) (content : ByteArray) :
    (tree.set place content).lookup path = .file other found := by
  obtain ⟨hpath, hleads, hfile⟩ := lookup_eq_file_iff.mp h
  exact lookup_eq_file_iff.mpr ⟨hpath, hleads.set hplace content,
    (lookup_files_set_of_ne hne tree content).trans hfile⟩

/-- Two trees are the same but for what is at one place. -/
structure SameExcept (place : Place) (before after : FileTree) : Prop where
  files : ∀ other ≠ place, after.files.lookup other = before.files.lookup other
  folders : after.folders = before.folders
  here : after.here = before.here
  /-- All paths to other files still lead there. -/
  paths : ∀ path other content, other ≠ place → before.lookup path = .file other content →
    after.lookup path = .file other content

theorem sameExcept_set (hplace : tree.isFolder place = false) (content : ByteArray) :
    SameExcept place tree (tree.set place content) where
  files _ hne := lookup_files_set_of_ne hne tree content
  folders := rfl
  here := rfl
  paths _ _ _ hne hfile := lookup_set_of_ne hplace hne hfile content

theorem eq_of_lookup_of_target {other : Place} {found : ByteArray}
    (h : tree.lookup path = .file other found) (htarget : tree.target path = .ok place) :
    other = place :=
  (leadsTo_of_target htarget).1.unique (lookup_eq_file_iff.mp h).2.1

/-! ### Texts -/

theorem fromUTF8?_toUTF8 (text : String) : String.fromUTF8? text.toUTF8 = some text := by
  have hvalid : text.toUTF8.IsValidUTF8 := text.isValidUTF8
  rw [String.fromUTF8?, dif_pos hvalid]
  rfl

theorem read_eq_ok_iff {text : String} : tree.read path = .ok text ↔
    ∃ place content, tree.lookup path = .file place content ∧
      String.fromUTF8? content = some text := by
  rw [read]
  constructor
  · intro h
    split at h
    · rename_i place content hfile
      split at h
      · obtain rfl := Except.ok.inj h
        exact ⟨place, content, hfile, ‹_›⟩
      · contradiction
    all_goals contradiction
  · rintro ⟨place, content, hfile, htext⟩
    rw [hfile]
    dsimp only
    rw [htext]

theorem read_set_target (hpath : isNoPath path = false) (h : tree.target path = .ok place)
    (text : String) : (tree.set place text.toUTF8).read path = .ok text :=
  read_eq_ok_iff.mpr
    ⟨place, text.toUTF8, lookup_set_target hpath h text.toUTF8, fromUTF8?_toUTF8 text⟩

end FileTree
end DiagramSync
