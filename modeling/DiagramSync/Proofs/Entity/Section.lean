import DiagramSync.Proofs.Document.Places
import DiagramSync.Proofs.Entity.Entry
import Mathlib

/-!
The entity section in its document: the lines between a heading that is meant for it and what ends
it. Each entry of the section has the place of a line of its own.
-/

namespace DiagramSync

open Text

namespace EntityEntry

/-! ### The section -/

/-- The line is the heading of an entity section. -/
def Heads (line : Line) (heading : Heading) : Prop :=
  Heading.ofLine? line = some heading ∧ headsSection heading = true

/-- The lines fall into those up to the heading of the first entity section, that section's lines
and the lines behind them. -/
structure Divides (lines front body back : List Line) : Prop where
  lines_eq : lines = front ++ (body ++ back)
  headed : ∃ before line heading, front = before ++ [line] ∧ section? before = none ∧
    Heads line heading ∧ sectionBody heading.level (body ++ back) = body

variable {lines front body back before rest : List Line} {line : Line}

theorem section?_cons_of_heads {heading : Heading} (h : Heads line heading) (rest : List Line) :
    EntityEntry.section? (line :: rest) = some (sectionBody heading.level rest) := by
  rw [section?, h.1]
  exact if_pos h.2

theorem section?_cons_of_not_heads (h : ∀ heading, ¬ Heads line heading) (rest : List Line) :
    EntityEntry.section? (line :: rest) = section? rest := by
  rw [section?]
  split
  · rename_i heading hheading
    exact if_neg fun hheads => h heading ⟨hheading, hheads⟩
  · rfl

theorem section?_append_of_none (h : section? before = none) (rest : List Line) :
    EntityEntry.section? (before ++ rest) = section? rest := by
  induction before with
  | nil => rfl
  | cons line others ih =>
    by_cases hheads : ∃ heading, Heads line heading
    · obtain ⟨heading, hheads⟩ := hheads
      rw [section?_cons_of_heads hheads] at h
      contradiction
    · rw [not_exists] at hheads
      rw [section?_cons_of_not_heads hheads] at h
      rw [List.cons_append, section?_cons_of_not_heads hheads, ih h]

theorem Divides.section?_eq (h : Divides lines front body back) : section? lines = some body := by
  obtain ⟨rfl, before, line, heading, rfl, hbefore, hheads, hbody⟩ := h
  rw [List.append_assoc, section?_append_of_none hbefore]
  rw [List.singleton_append, section?_cons_of_heads hheads, hbody]

/-- A section is what stands behind a heading that is meant for it. -/
theorem section?_eq_some_iff :
    EntityEntry.section? lines = some body ↔ ∃ front back, Divides lines front body back := by
  refine ⟨fun h => ?_, fun ⟨front, back, h⟩ => h.section?_eq⟩
  induction lines with
  | nil => contradiction
  | cons line rest ih =>
    by_cases hheads : ∃ heading, Heads line heading
    · obtain ⟨heading, hheads⟩ := hheads
      rw [section?_cons_of_heads hheads, Option.some_inj] at h
      obtain ⟨back, hback⟩ : body <+: rest := h ▸ List.takeWhile_prefix _
      subst hback
      exact ⟨[line], back, rfl, [], line, heading, rfl, rfl, hheads, h⟩
    · rw [not_exists] at hheads
      rw [section?_cons_of_not_heads hheads] at h
      obtain ⟨front, back, rfl, before, last, heading, rfl, hbefore, hlast, hbody⟩ := ih h
      refine ⟨line :: (before ++ [last]), back, rfl, line :: before, last, heading, rfl, ?_, hlast,
        hbody⟩
      rw [section?_cons_of_not_heads hheads, hbefore]

theorem Divides.sublist (h : Divides lines front body back) : body.Sublist lines := by
  rw [h.lines_eq]
  exact (List.sublist_append_left body back).trans (List.sublist_append_right front _)

/-! ### Places of entries -/

theorem map_span_listed_sublist (lines : List Line) :
    ((listed lines).map EntityEntry.span).Sublist (lines.map Line.span) := by
  induction lines with
  | nil => exact List.Sublist.slnil
  | cons line rest ih =>
    rw [listed, List.map_cons]
    split
    · cases hbullet : ofBullet? line with
      | none => exact ih.cons _
      | some entry =>
        have hspan : (entry.withLines rest).span = line.span := by
          rw [← span_of_ofBullet?_eq_some hbullet]
          rfl
        rw [Option.map_some, Option.toList_some, List.singleton_append, List.map_cons, hspan]
        exact ih.cons_cons _
    · exact ih.cons _

theorem map_span_ofSection_sublist (lines : List Line) :
    ((ofSection lines).records.map EntityEntry.span).Sublist (lines.map Line.span) := by
  rw [records_ofSection]
  exact ((fresh_sublist [] _).map EntityEntry.span).trans (map_span_listed_sublist lines)

theorem nodup_span_ofSection {document : Text}
    (h : section? (Line.scan document) = some lines) :
    ((ofSection lines).records.map EntityEntry.span).Nodup := by
  obtain ⟨front, back, hdivides⟩ := section?_eq_some_iff.mp h
  exact ((map_span_ofSection_sublist lines).trans (hdivides.sublist.map Line.span)).nodup
    (Line.nodup_span_scan document)

end EntityEntry

end DiagramSync
