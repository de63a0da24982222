import DiagramSync.Diagram.Journey
import DiagramSync.Proofs.Document.Padding
import DiagramSync.Proofs.Findings
import DiagramSync.Story.OfDocument

/-!
Inert lines do not change the stories that are read and the warnings on the way, save for their
places, and no diagram tells of those.
-/

namespace DiagramSync

open Text

namespace ScenarioItem

theorem read_of_inert {text : Text} (h : text = [] ∨ text.head? = some '<') :
    read text = .unrelated := by
  obtain rfl | hmarker := h
  · simp [read, dropStrong, replaceAll, itemBody?, skipSpaces, span1?]
  · obtain ⟨rest, rfl⟩ := List.head?_eq_some_iff.mp hmarker
    simp [read, dropStrong, replaceAll, itemBody?, skipSpaces, span1?, Text.isSpace]

end ScenarioItem

namespace Story

/-- The story without its place. -/
def unplaced (story : Story) : Story :=
  { story with span := ⟨0, 0⟩ }

namespace Open

def unplaced (opened : Open) : Open :=
  ⟨opened.story.unplaced, opened.level⟩

end Open

theorem records_close (opened : Option Open) (rest : Findings Story) :
    (close opened rest).records = (opened.map Open.story).toList ++ rest.records := by
  cases opened with
  | none => rfl
  | some opening =>
    rw [close]
    split <;> simp

theorem collect_inert {line : Line} (h : line.Inert) (opened : Option Open) (last : Option Nat)
    (rest : List Line) : collect opened last (line :: rest) = collect opened last rest := by
  cases opened with
  | none => simp [collect, h.ofLine?_eq_none]
  | some opening =>
    rw [collect, h.ofLine?_eq_none]
    split
    · rfl
    · rename_i hfenced
      rw [ScenarioItem.read_of_inert (h.resolve_left hfenced)]

theorem unplaced_close (opened : Option Open) (rest : Findings Story) :
    (close opened rest).unplaced unplaced =
      close (opened.map Open.unplaced) (rest.unplaced unplaced) := by
  cases opened with
  | none => rfl
  | some opening =>
    have hscenarios : opening.story.unplaced.hasScenarios = opening.story.hasScenarios := rfl
    simp only [close, Option.map_some, Open.unplaced, hscenarios]
    split
    · rfl
    · rfl

theorem map_sequenceWarning?_unplaced (last : Option Nat) (number : Nat) (line line' : Line) :
    (sequenceWarning? last number line).map Diagnostic.unplaced =
      (sequenceWarning? last number line').map Diagnostic.unplaced := by
  cases last with
  | none => rfl
  | some previous =>
    simp only [sequenceWarning?]
    split <;> rfl

theorem unplaced_addScenario {story story' : Story} (h : story.unplaced = story'.unplaced)
    (scenario : Scenario) :
    (story.addScenario scenario).unplaced = (story'.addScenario scenario).unplaced := by
  simp only [unplaced, addScenario, mk.injEq] at h ⊢
  simp [h]

/-- The induction is on the padding. The stories that are open on both sides are the same but
for their places. -/
theorem collect_padded {ended : Prop} {lines lines' : List Line} (h : Padded ended lines lines')
    {opened opened' : Option Open} (hopened : opened.map Open.unplaced = opened'.map Open.unplaced)
    (last : Option Nat) :
    (collect opened last lines).unplaced unplaced =
      (collect opened' last lines').unplaced unplaced := by
  induction h generalizing opened opened' last with
  | nil ended => rw [collect, collect, unplaced_close, unplaced_close, hopened]
  | pad line hinert hplace _ ih =>
    rw [collect_inert hinert]
    exact ih hopened last
  | keep line line' htext hfenced _ ih =>
    have hheading := Line.ofLine?_congr htext hfenced
    have hheader : ∀ (header : StoryHeading) (level : Nat),
        (some (⟨ofHeader header line, level⟩ : Open)).map Open.unplaced =
          (some (⟨ofHeader header line', level⟩ : Open)).map Open.unplaced := fun _ _ => rfl
    have hmalformed : (malformedHeader line).unplaced = (malformedHeader line').unplaced := rfl
    cases opened with
    | none =>
      obtain rfl : opened' = none := by simpa using hopened.symm
      simp only [collect, hheading, hfenced]
      split
      · exact ih rfl last
      · split
        · split
          · simp only [unplaced_close, Findings.unplaced_warn?]
            rw [ih (hheader _ _) _, map_sequenceWarning?_unplaced last _ line line']
          · split
            · simp only [unplaced_close, Findings.unplaced_warn, hmalformed]
              rw [ih rfl last]
            · exact ih rfl last
        · exact ih rfl last
    | some opening =>
      cases opened' with
      | none => simp at hopened
      | some opening' =>
        obtain ⟨story, level⟩ := opening
        obtain ⟨story', level'⟩ := opening'
        have hsame : story.unplaced = story'.unplaced ∧ level = level' := by
          simpa [Open.unplaced] using hopened
        obtain ⟨hstory, rfl⟩ := hsame
        have hnumber : story.unplaced.number = story'.unplaced.number := by rw [hstory]
        have hscenario : (malformedScenario story.number line).unplaced =
            (malformedScenario story'.number line').unplaced := by
          simp only [unplaced] at hnumber
          rw [hnumber]
          rfl
        simp only [collect, hheading, hfenced, htext]
        split
        · exact ih hopened last
        · split
          · split
            · simp only [unplaced_close, Findings.unplaced_warn?, hopened]
              rw [ih (hheader _ _) _, map_sequenceWarning?_unplaced last _ line line']
            · split
              · simp only [unplaced_close, Findings.unplaced_warn, hopened, hmalformed]
                rw [ih rfl last]
              · split
                · simp only [unplaced_close, hopened]
                  rw [ih rfl last]
                · exact ih hopened last
          · split
            · exact ih (by simp [Open.unplaced, unplaced_addScenario hstory]) last
            · simp only [Findings.unplaced_warn, ih hopened last, hscenario]
            · exact ih hopened last

end Story

/-! ### Diagrams of stories -/

namespace Journey

theorem storyGroup_unplaced (ordinal : Nat) (story : Story) :
    storyGroup ordinal story.unplaced = storyGroup ordinal story := rfl

theorem groups_unplaced (ordinal : Nat) (stories : List Story) :
    groups ordinal (stories.map Story.unplaced) = groups ordinal stories := by
  induction stories generalizing ordinal with
  | nil => rfl
  | cons story rest ih => rw [List.map_cons, groups, groups, storyGroup_unplaced, ih]

theorem nodeCount_unplaced (stories : List Story) :
    nodeCount (stories.map Story.unplaced) = nodeCount stories := by
  simp only [nodeCount, List.foldr_map]
  rfl

theorem diagram?_unplaced (limits : Limits) (stories : List Story) :
    diagram? limits (stories.map Story.unplaced) = diagram? limits stories := by
  simp only [diagram?, render, chart, groups_unplaced, nodeCount_unplaced, List.isEmpty_map]

end Journey
end DiagramSync
