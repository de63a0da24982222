import DiagramSync.Diagnostic

/-!
Findings in parts: the records, which only `cons` adds to, the diagnostics of one kind, and
whether an error is among them. Without their places findings can be compared between documents.
-/

namespace DiagramSync

/-- The diagnostic without the places that it points at. -/
def Diagnostic.unplaced (diagnostic : Diagnostic) : Diagnostic :=
  { diagnostic with labels := diagnostic.labels.map fun label => { label with span := ⟨0, 0⟩ } }

namespace Findings

variable {α : Type}

/-- Returns `true` if there is an error among the findings. -/
def fails (found : Findings α) : Bool :=
  found.diagnostics.any Diagnostic.isError

@[simp] theorem fails_empty : (empty : Findings α).fails = false := rfl

@[simp] theorem records_empty : (empty : Findings α).records = [] := rfl

@[simp] theorem fails_cons (record : α) (rest : Findings α) :
    (rest.cons record).fails = rest.fails := rfl

@[simp] theorem records_cons (record : α) (rest : Findings α) :
    (rest.cons record).records = record :: rest.records := rfl

@[simp] theorem fails_warn (diagnostic : Diagnostic) (rest : Findings α) :
    (rest.warn diagnostic).fails = (diagnostic.isError || rest.fails) := rfl

@[simp] theorem records_warn (diagnostic : Diagnostic) (rest : Findings α) :
    (rest.warn diagnostic).records = rest.records := rfl

@[simp] theorem records_warn? (diagnostic : Option Diagnostic) (rest : Findings α) :
    (rest.warn? diagnostic).records = rest.records := by
  cases diagnostic <;> rfl

theorem mem_diagnostics_warn? {diagnostic : Diagnostic} {warning : Option Diagnostic}
    {rest : Findings α} : diagnostic ∈ (rest.warn? warning).diagnostics ↔
      diagnostic ∈ warning ∨ diagnostic ∈ rest.diagnostics := by
  cases warning <;> simp [warn?, warn, eq_comm]

/-! ### Diagnostics of one kind -/

/-- The diagnostics with one code, in order. -/
def withCode (code : Code) (found : Findings α) : List Diagnostic :=
  found.diagnostics.filter fun diagnostic => diagnostic.code = some code

theorem withCode_eq_nil_iff {code : Code} {found : Findings α} :
    found.withCode code = [] ↔ ∀ diagnostic ∈ found.diagnostics, diagnostic.code ≠ some code := by
  simp [withCode]

@[simp] theorem withCode_empty (code : Code) : (empty : Findings α).withCode code = [] := rfl

@[simp] theorem withCode_cons (code : Code) (record : α) (rest : Findings α) :
    (rest.cons record).withCode code = rest.withCode code := rfl

@[simp] theorem withCode_warn (code : Code) (diagnostic : Diagnostic) (rest : Findings α) :
    (rest.warn diagnostic).withCode code =
      if diagnostic.code = some code then diagnostic :: rest.withCode code
      else rest.withCode code := by
  simp [withCode, warn, List.filter_cons]

@[simp] theorem withCode_warn? (code : Code) (diagnostic : Option Diagnostic)
    (rest : Findings α) :
    (rest.warn? diagnostic).withCode code =
      (diagnostic.toList.filter fun diagnostic => diagnostic.code = some code) ++
        rest.withCode code := by
  cases diagnostic with
  | none => rfl
  | some diagnostic => by_cases h : diagnostic.code = some code <;> simp [warn?, h]

/-! ### Findings put together -/

theorem empty_append (found : Findings α) : empty.append found = found := rfl

theorem warn_append (diagnostic : Diagnostic) (first second : Findings α) :
    (first.warn diagnostic).append second = (first.append second).warn diagnostic := rfl

theorem warn?_append (diagnostic : Option Diagnostic) (first second : Findings α) :
    (first.warn? diagnostic).append second = (first.append second).warn? diagnostic := by
  cases diagnostic <;> rfl

/-! ### Places -/

/-- The findings without places. A record loses its place by `unplace`. -/
def unplaced (unplace : α → α) (found : Findings α) : Findings α :=
  ⟨found.records.map unplace, found.diagnostics.map Diagnostic.unplaced⟩

variable (unplace : α → α)

@[simp] theorem unplaced_cons (record : α) (rest : Findings α) :
    (rest.cons record).unplaced unplace = (rest.unplaced unplace).cons (unplace record) := rfl

@[simp] theorem unplaced_warn (diagnostic : Diagnostic) (rest : Findings α) :
    (rest.warn diagnostic).unplaced unplace =
      (rest.unplaced unplace).warn diagnostic.unplaced := rfl

@[simp] theorem unplaced_warn? (diagnostic : Option Diagnostic) (rest : Findings α) :
    (rest.warn? diagnostic).unplaced unplace =
      (rest.unplaced unplace).warn? (diagnostic.map Diagnostic.unplaced) := by
  cases diagnostic <;> rfl

end Findings

end DiagramSync
