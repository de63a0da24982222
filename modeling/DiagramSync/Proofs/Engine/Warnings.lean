import DiagramSync.Engine
import DiagramSync.Proofs.Entity.Relationship
import DiagramSync.Proofs.Entity.Section
import DiagramSync.Proofs.Story.Scope

/-!
Reading a document never fails: all that there is to say about its stories and entities are
warnings, and each of them is about lines of the document.
-/

namespace DiagramSync

namespace Model

/-- A warning about a document's model. What it points at are lines of the document. -/
inductive Warns (document : Text) : Diagnostic → Prop where
  | story {diagnostic : Diagnostic} :
      Story.Warns (· ∈ (Line.scan document).map Line.span) diagnostic → Warns document diagnostic
  | bullet {diagnostic : Diagnostic} :
      EntityEntry.Warns (· ∈ (Line.scan document).map Line.span) diagnostic →
      Warns document diagnostic
  | entry {diagnostic : Diagnostic} {codes : List Code} (entry : EntityEntry) :
      entry.span ∈ (Line.scan document).map Line.span →
      Entity.WarnsOf codes entry diagnostic → Warns document diagnostic

theorem warns_of_mem_ofDocument {document : Text} {diagnostic : Diagnostic}
    (h : diagnostic ∈ (ofDocument document).2) : Warns document diagnostic := by
  have hlines : ∀ line ∈ Line.scan document, line.span ∈ (Line.scan document).map Line.span :=
    fun line => List.mem_map_of_mem
  obtain hstory | hentity := List.mem_append.mp h
  · exact .story (Story.warns_of_mem_collect (by simp) hlines hstory)
  · cases hfound : Entity.ofDocument? document with
    | none =>
      rw [hfound] at hentity
      contradiction
    | some found =>
      rw [hfound] at hentity
      obtain ⟨lines, hsection, rfl⟩ := Option.map_eq_some_iff.mp hfound
      obtain ⟨front, back, hdivides⟩ := EntityEntry.section?_eq_some_iff.mp hsection
      obtain hbullet | ⟨entry, hentry, codes, hwarns⟩ := Entity.warnsOf_of_mem_ofSection hentity
      · exact .bullet (EntityEntry.warns_of_mem_collect (by simp) (by simp)
          (fun line hline => hlines line (hdivides.sublist.mem hline)) hbullet)
      · refine .entry entry (List.Sublist.mem (List.mem_map_of_mem hentry) ?_) hwarns
        exact (EntityEntry.map_span_ofSection_sublist lines).trans
          (hdivides.sublist.map Line.span)

end Model

end DiagramSync
