import DiagramSync.Document.Heading
import DiagramSync.Entity.Entry
import DiagramSync.Proofs.Document.Scan

/-!
Lines that are put in without being noticed. An inert line is no heading and no item of a list,
but it may end an entry; so it has to stand where no entry is open or where the line behind it
ends the entry anyway.
-/

namespace DiagramSync

open Text

/-- The line is fenced, empty, or begins like a marker. -/
def Line.Inert (line : Line) : Prop :=
  line.fenced = true ∨ line.text = [] ∨ line.text.head? = some '<'

/-- The line is neither passed over nor part of an entry. -/
def Line.EndsEntry (line : Line) : Prop :=
  line.fenced = false ∧ line.isBlank = false ∧ EntityEntry.isOuterBullet line.text = false ∧
    line.beginsIndented = false

/-- The lines are the same but for their places, and inert ones are put in. `ended` says that
the line in front ends an entry. -/
inductive Padded : Prop → List Line → List Line → Prop where
  | nil (ended : Prop) : Padded ended [] []
  | keep {ended : Prop} {lines lines' : List Line} (line line' : Line) :
      line'.text = line.text → line'.fenced = line.fenced →
      Padded line.EndsEntry lines lines' → Padded ended (line :: lines) (line' :: lines')
  | pad {ended : Prop} {lines lines' : List Line} (line : Line) :
      line.Inert → (ended ∨ ∀ next ∈ lines.head?, next.EndsEntry) →
      Padded ended lines lines' → Padded ended lines (line :: lines')

namespace Line

theorem Inert.ofLine?_eq_none {line : Line} (h : line.Inert) : Heading.ofLine? line = none := by
  obtain hfenced | hempty | hmarker := h
  · simp [Heading.ofLine?, hfenced]
  · simp [Heading.ofLine?, Heading.ofText?, hempty]
  · obtain ⟨rest, htext⟩ := List.head?_eq_some_iff.mp hmarker
    simp [Heading.ofLine?, Heading.ofText?, htext]

theorem ofLine?_congr {line line' : Line} (htext : line'.text = line.text)
    (hfenced : line'.fenced = line.fenced) : Heading.ofLine? line' = Heading.ofLine? line := by
  rw [Heading.ofLine?, Heading.ofLine?, htext, hfenced]

theorem exists_eq_cons_of_heading {line : Line} (h : (Heading.ofLine? line).isSome = true)
    (hcolumn : line.beginsIndented = false) :
    line.fenced = false ∧ ∃ rest, line.text = '#' :: rest := by
  have hfenced : line.fenced = false := by
    cases hfenced : line.fenced with
    | false => rfl
    | true => simp [Heading.ofLine?, hfenced] at h
  refine ⟨hfenced, ?_⟩
  rw [Heading.ofLine?, if_neg (by simp [hfenced])] at h
  rw [beginsIndented] at hcolumn
  cases htext : line.text with
  | nil => simp [htext, Heading.ofText?] at h
  | cons c rest =>
    rw [htext] at h hcolumn
    have hspace : (c == ' ') = false := by
      simp only [Text.isSpace, Bool.or_eq_false_iff] at hcolumn
      exact hcolumn.1
    by_cases hc : (c == '#') = true
    · rw [beq_iff_eq] at hc
      exact ⟨rest, by rw [hc]⟩
    · simp [Heading.ofText?, hspace, hc] at h

theorem endsEntry_of_heading {line : Line} (h : (Heading.ofLine? line).isSome = true)
    (hcolumn : line.beginsIndented = false) : line.EndsEntry := by
  obtain ⟨hfenced, rest, htext⟩ := exists_eq_cons_of_heading h hcolumn
  refine ⟨hfenced, ?_, ?_, hcolumn⟩
  · rw [isBlank, htext, Text.isBlank, List.all_cons]
    exact Bool.and_eq_false_imp.mpr fun hwhite => absurd hwhite (by decide)
  · rw [htext]
    cases rest <;> simp [EntityEntry.isOuterBullet, EntityEntry.isBulletMark]

end Line

/-! ### Putting lines together -/

theorem Padded.pad_append {ended : Prop} {lines lines' padding : List Line}
    (hinert : ∀ line ∈ padding, line.Inert)
    (hplace : ended ∨ ∀ next ∈ lines.head?, next.EndsEntry) (h : Padded ended lines lines') :
    Padded ended lines (padding ++ lines') := by
  induction padding with
  | nil => exact h
  | cons line rest ih =>
    rw [List.forall_mem_cons] at hinert
    exact .pad line hinert.1 hplace (ih hinert.2)

/-- The last one of the lines ends an entry, or `ended` if there are none. -/
def EndedAfter (ended : Prop) : List Line → Prop
  | [] => ended
  | line :: rest => EndedAfter line.EndsEntry rest

theorem endedAfter_append (ended : Prop) (a b : List Line) :
    EndedAfter ended (a ++ b) = EndedAfter (EndedAfter ended a) b := by
  induction a generalizing ended with
  | nil => rfl
  | cons line rest ih => exact ih line.EndsEntry

theorem Padded.keep_pieces {ended : Prop} {opened opened' : Option Fence} {start start' : Nat}
    {kept kept' : List Text} (hopened : kept ≠ [] → opened' = opened)
    (hcontent : kept'.map Line.content = kept.map Line.content) {lines lines' : List Line}
    (h : Padded (EndedAfter ended (Line.ofPieces opened start kept)) lines lines') :
    Padded ended (Line.ofPieces opened start kept ++ lines)
      (Line.ofPieces opened' start' kept' ++ lines') := by
  induction kept generalizing ended opened opened' start start' kept' with
  | nil =>
    obtain rfl : kept' = [] := by simpa using hcontent
    exact h
  | cons piece rest ih =>
    obtain rfl := hopened (by simp)
    cases kept' with
    | nil => contradiction
    | cons piece' rest' =>
      obtain ⟨hpiece, hrest⟩ := List.cons.inj hcontent
      simp only [Line.ofPieces, List.cons_append, hpiece] at h ⊢
      exact .keep _ _ rfl rfl (ih (fun _ => rfl) hrest h)

end DiagramSync
