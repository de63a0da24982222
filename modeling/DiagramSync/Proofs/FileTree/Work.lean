import DiagramSync.Proofs.FileTree.Path

/-!
Work on files, step by step: a failure keeps what the steps before it have changed. Writing
changes nothing until its last step, so it replaces a file as a whole or leaves all as it is.
-/

namespace DiagramSync
namespace FileWork

variable {ε ε' α β : Type}

/-! ### Steps -/

@[simp] theorem on_get (tree : FileTree) :
    (get : FileWork ε FileTree).on tree = (.ok tree, tree) := rfl

@[simp] theorem on_set (tree after : FileTree) :
    (set after : FileWork ε PUnit).on tree = (.ok ⟨⟩, after) := rfl

@[simp] theorem on_lift (value : Except ε α) (tree : FileTree) :
    (liftM value : FileWork ε α).on tree = (value, tree) := rfl

/-- The second step finds the tree that the first one leaves, unless that fails. -/
theorem on_bind (first : FileWork ε α) (next : α → FileWork ε β) (tree : FileTree) :
    (first >>= next).on tree =
      match first.on tree with
      | (.ok value, after) => (next value).on after
      | (.error failure, after) => (.error failure, after) := by
  rw [on, on, ExceptT.run_bind, StateT.run_bind]
  obtain ⟨value | failure, after⟩ := StateT.run (ExceptT.run first) tree <;> rfl

theorem on_adapt (name : ε → ε') (work : FileWork ε α) (tree : FileTree) :
    FileWork.on (ExceptT.adapt name work) tree =
      ((work.on tree).1.mapError name, (work.on tree).2) := rfl

theorem on_objectTo (objection : Option FileFailure) (tree : FileTree) :
    (objectTo objection).on tree =
      (match objection with | some failure => .error failure | none => .ok (), tree) := by
  cases objection <;> rfl

/-! ### Writing -/

/-- A draft changes nothing. It is made beside what can be a path only. -/
theorem draft_cases (disk : Disk) (path : String) (tree : FileTree) :
    (∃ failure, (draft disk path).on tree = (.error failure, tree)) ∨
      FileTree.isNoPath path = false ∧ (draft disk path).on tree = (.ok (), tree) := by
  simp only [draft, on_bind, on_get, on_lift, on_objectTo]
  cases hfolder : tree.workFolder path with
  | error failure => exact .inl ⟨failure, rfl⟩
  | ok folder =>
    have hpath : FileTree.isNoPath path = false := by
      cases hnone : FileTree.isNoPath path with
      | false => rfl
      | true => simp [FileTree.workFolder, hnone] at hfolder
    cases hdisk : disk.againstDraft tree folder with
    | some failure => exact .inl ⟨failure, by simp only [hdisk]⟩
    | none => exact .inr ⟨hpath, by simp only [hdisk]⟩

theorem move_cases (disk : Disk) (path text : String) (tree : FileTree) :
    (∃ failure, (move disk path text).on tree = (.error failure, tree)) ∨
      ∃ place, tree.target path = .ok place ∧
        (move disk path text).on tree = (.ok (), tree.set place text.toUTF8) := by
  simp only [move, on_bind, on_get, on_lift, on_objectTo, on_set]
  cases tree.target path with
  | error failure => exact .inl ⟨failure, rfl⟩
  | ok place =>
    cases hdisk : disk.againstMove tree place with
    | some failure => exact .inl ⟨failure, by simp only [hdisk]⟩
    | none => exact .inr ⟨place, rfl, by simp only [hdisk]⟩

/-- Writing fails and changes nothing, or the target has the text and nothing else is changed. -/
theorem write_cases (disk : Disk) (path text : String) (tree : FileTree) :
    (∃ failure, (write disk path text).on tree = (.error failure, tree)) ∨
      ∃ place, FileTree.isNoPath path = false ∧ tree.target path = .ok place ∧
        (write disk path text).on tree = (.ok (), tree.set place text.toUTF8) := by
  rw [write, on_bind]
  obtain ⟨failure, hdraft⟩ | ⟨hpath, hdraft⟩ := draft_cases disk path tree
  · rw [hdraft]
    exact .inl ⟨failure, rfl⟩
  rw [hdraft]
  obtain hfailed | ⟨place, htarget, hmove⟩ := move_cases disk path text tree
  · exact .inl hfailed
  · exact .inr ⟨place, hpath, htarget, hmove⟩

end FileWork
end DiagramSync
