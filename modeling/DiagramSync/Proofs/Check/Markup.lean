import DiagramSync.Check.Markup
import DiagramSync.Proofs.Text.Words

/-!
The check of markup that is put together line by line: what is left of it are the checks of the
delimiters and of the statements.
-/

namespace DiagramSync.Markup

open Text

/-- The lines with their numbers, the first of which is `start`. -/
def numbered (start : Nat) : List Text → List NumberedLine
  | [] => []
  | line :: rest => (start, line) :: numbered (start + 1) rest

@[simp] theorem numbered_nil (start : Nat) : numbered start [] = [] := rfl

@[simp] theorem numbered_cons (start : Nat) (line : Text) (rest : List Text) :
    numbered start (line :: rest) = (start, line) :: numbered (start + 1) rest := rfl

theorem numbered_append (start : Nat) (a b : List Text) :
    numbered start (a ++ b) = numbered start a ++ numbered (start + a.length) b := by
  induction a generalizing start with
  | nil => rfl
  | cons line rest ih =>
    rw [List.cons_append, numbered, ih, numbered, List.cons_append, List.length_cons,
      Nat.add_right_comm, Nat.add_assoc]

/-! ### Runs of a check -/

/-- The lines lead a check from one state to another, and have no fault. -/
def Leads {State : Type} (faults : State → List NumberedLine → List Fault) (state state' : State)
    (lines : List Text) : Prop :=
  ∀ start rest, faults state (numbered start lines ++ rest) = faults state' rest

namespace Leads

variable {State : Type} {faults : State → List NumberedLine → List Fault}
  {state state' state'' : State}

theorem nil : Leads faults state state [] :=
  fun _ _ => rfl

theorem append {a b : List Text} (ha : Leads faults state state' a)
    (hb : Leads faults state' state'' b) : Leads faults state state'' (a ++ b) := by
  intro start rest
  rw [numbered_append, List.append_assoc, ha, hb]

theorem flatMap {α : Type} {items : List α} {lines : α → List Text}
    (h : ∀ item ∈ items, Leads faults state state (lines item)) :
    Leads faults state state (items.flatMap lines) := by
  induction items with
  | nil => exact nil
  | cons item rest ih =>
    rw [List.forall_mem_cons] at h
    exact append h.1 (ih h.2)

theorem of_forall {lines : List Text} (h : ∀ line ∈ lines, Leads faults state state [line]) :
    Leads faults state state lines := by
  have hflat := flatMap h
  rwa [List.flatMap_singleton'] at hflat

theorem eq_nil {lines : List Text} (h : Leads faults state state' lines)
    (hend : faults state' [] = []) (start : Nat) : faults state (numbered start lines) = [] := by
  have hfaults := h start []
  rwa [List.append_nil, hend] at hfaults

end Leads

/-! ### Lines -/

/-- A line that begins with a character that is neither white space nor begins a comment. -/
theorem isSignificant_append {indent : Text} (hindent : ∀ c ∈ indent, isWhite c = true)
    {c : Char} (hwhite : isWhite c = false) (hcomment : c ≠ '%') (rest : Text) :
    isSignificant (indent ++ c :: rest) = true := by
  obtain ⟨rest', htrim⟩ := exists_trim_append hindent hwhite rest
  have hnone : stripPrefix? ['%', '%'] (c :: rest') = none := by
    rw [stripPrefix?, if_neg (Ne.symm hcomment)]
  simp [isSignificant, htrim, hnone]

theorem isSignificant_of_isWord {indent : Text} (hindent : ∀ c ∈ indent, isWhite c = true)
    {word : Text} (hword : IsWord word) (hcomment : '%' ∉ word) (rest : Text) :
    isSignificant (indent ++ (word ++ rest)) = true := by
  obtain ⟨c, others, rfl⟩ := List.exists_cons_of_ne_nil hword.1
  refine isSignificant_append hindent (hword.2 c List.mem_cons_self) ?_ (others ++ rest)
  rintro rfl
  exact hcomment List.mem_cons_self

theorem isSignificant_of_isId {indent : Text} (hindent : ∀ c ∈ indent, isWhite c = true)
    {id : Text} (hid : Label.IsId id) (rest : Text) :
    isSignificant (indent ++ (id ++ rest)) = true :=
  isSignificant_of_isWord hindent (isWord_of_isId hid)
    (fun hmem => absurd (hid.2 '%' hmem) (by decide)) rest

theorem significantLines_flatMap_feed {lines : List Text}
    (h : ∀ line ∈ lines, Unbroken line ∧ isSignificant line = true) :
    significantLines (lines.flatMap fun line => line ++ ['\n']) = numbered 1 lines := by
  rw [significantLines, lines_flatMap_feed fun line hline => (h line hline).1]
  generalize 1 = start
  induction lines generalizing start with
  | nil => rfl
  | cons line rest ih =>
    rw [List.forall_mem_cons] at h
    rw [List.zipIdx_cons, List.filterMap_cons, numbered, ih h.2]
    simp [h.1.2]

/-- Markup that begins with its declaration has the faults of the lines below. -/
theorem faults_flatMap_feed {kind : Kind} {first : Text} {rest : List Text}
    (h : ∀ line ∈ first :: rest, Unbroken line ∧ isSignificant line = true)
    (hdeclared : declared? (trim first) = some kind) :
    faults kind ((first :: rest).flatMap fun line => line ++ ['\n']) =
      bodyFaults kind (numbered 2 rest) := by
  rw [faults, significantLines_flatMap_feed h, numbered]
  simp [hdeclared]

end DiagramSync.Markup
