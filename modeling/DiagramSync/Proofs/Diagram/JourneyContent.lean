import DiagramSync.Proofs.Diagram.JourneyGraph
import DiagramSync.Proofs.Update.Order
import DiagramSync.Proofs.Update.Padding

/-!
The markup of a journey diagram tells what the stories say: stories are drawn alike only if they
are alike, line breaks aside. So a region that is up to date shows what the document says now.
-/

namespace DiagramSync

/-! ### Stories that look the same -/

/-- Clauses that are the same once they stand on one line. -/
structure Scenario.Alike (scenario scenario' : Scenario) : Prop where
  precondition : Label.SameLine scenario.precondition scenario'.precondition
  trigger : Label.SameLine scenario.trigger scenario'.trigger
  outcome : Label.SameLine scenario.outcome scenario'.outcome

/-- Stories that say the same, in whatever places of the document. Line breaks count as spaces. -/
structure Story.Alike (story story' : Story) : Prop where
  number : story.number = story'.number
  priority : story.priority = story'.priority
  title : Label.SameLine story.title story'.title
  scenarios : List.Forall₂ Scenario.Alike story.scenarios story'.scenarios

theorem Priority.text_injective {priority priority' : Priority}
    (h : priority.text = priority'.text) : priority = priority' := by
  have hread := congrArg ofText? h
  rw [ofText?_text, ofText?_text] at hread
  exact Option.some.inj hread

theorem Priority.length_text (priority : Priority) : priority.text.toList.length = 2 := by
  cases priority <;> rfl

theorem Scenario.alike_of_contents {scenario scenario' : Scenario}
    (h : scenario.contents = scenario'.contents) : scenario.Alike scenario' := by
  have hlabel : ∀ {word text text' : String},
      word ++ Label.escape text = word ++ Label.escape text' →
        Label.SameLine text text' := by
    intro word text text' heq
    have htexts := congrArg String.toList heq
    rw [String.toList_append, String.toList_append] at htexts
    exact Label.escape_eq_escape_iff.mp (String.toList_injective (List.append_cancel_left htexts))
  simp only [contents, List.cons.injEq, Prod.mk.injEq, true_and, and_true] at h
  exact ⟨hlabel h.1, hlabel h.2.1, hlabel h.2.2⟩

theorem Scenario.forall₂_alike_of_contents {scenarios scenarios' : List Scenario}
    (h : scenarios.flatMap contents = scenarios'.flatMap contents) :
    List.Forall₂ Alike scenarios scenarios' := by
  induction scenarios generalizing scenarios' with
  | nil =>
    cases scenarios' with
    | nil => exact .nil
    | cons scenario' rest' => simp [contents] at h
  | cons scenario rest ih =>
    cases scenarios' with
    | nil => simp [contents] at h
    | cons scenario' rest' =>
      rw [List.flatMap_cons, List.flatMap_cons] at h
      obtain ⟨hfirst, hrest⟩ := List.append_inj h (by rw [length_contents, length_contents])
      exact .cons (alike_of_contents hfirst) (ih hrest)

/-- The node of a title cannot be taken for the first one of a scenario: there would be more. -/
theorem Story.forall₂_alike_of_contents {story story' : Story}
    (h : story.contents = story'.contents) :
    List.Forall₂ Scenario.Alike story.scenarios story'.scenarios := by
  have hlength := congrArg List.length h
  rw [length_contents, length_contents, Journey.nodesFor, Journey.nodesFor] at hlength
  rw [contents, contents] at h
  cases hscenarios : story.scenarios with
  | nil =>
    cases hscenarios' : story'.scenarios with
    | nil => exact .nil
    | cons scenario' rest' =>
      simp only [hscenarios, hscenarios', List.length_cons] at hlength
      omega
  | cons scenario rest =>
    cases hscenarios' : story'.scenarios with
    | nil =>
      simp only [hscenarios, hscenarios', List.length_cons] at hlength
      omega
    | cons scenario' rest' =>
      rw [hscenarios, hscenarios', List.isEmpty_cons, List.isEmpty_cons,
        if_neg Bool.false_ne_true, if_neg Bool.false_ne_true] at h
      exact Scenario.forall₂_alike_of_contents h

namespace DrawnGroup

variable {group : DrawnGroup} {story story' : Story}

/-- A group tells the story that it shows. -/
theorem Shows.alike (h : group.Shows story) (h' : group.Shows story') : story.Alike story' := by
  have hlabel := congrArg String.toList (h.label.symm.trans h'.label)
  simp only [String.toList_append, List.append_assoc] at hlabel
  obtain ⟨hnumber, hrest⟩ := Text.toString_append_inj (List.append_cancel_left hlabel)
    (by simp) (by simp)
  -- Titles may hold anything, but what stands behind them is of one length.
  obtain ⟨htitle, hend⟩ := List.append_inj' (List.append_cancel_left hrest) (by
    simp only [List.length_append, Priority.length_text])
  have hpriority := List.append_cancel_right (List.append_cancel_left hend)
  exact {
    number := hnumber
    priority := Priority.text_injective (String.toList_injective hpriority)
    title := Label.escape_eq_escape_iff.mp (String.toList_injective htitle)
    scenarios := Story.forall₂_alike_of_contents (h.nodes.symm.trans h'.nodes) }

theorem forall₂_alike {groups : List DrawnGroup} {stories stories' : List Story}
    (h : List.Forall₂ Shows groups stories) (h' : List.Forall₂ Shows groups stories') :
    List.Forall₂ Story.Alike stories stories' := by
  induction h generalizing stories' with
  | nil =>
    cases h'
    exact .nil
  | cons hstory _ ih =>
    cases h' with
    | cons hstory' hrest' => exact .cons (hstory.alike hstory') (ih hrest')

end DrawnGroup

/-! ### Diagrams -/

namespace Journey

theorem scenarioNodes_of_alike {scenarios scenarios' : List Scenario}
    (h : List.Forall₂ Scenario.Alike scenarios scenarios') (ordinal index : Nat) :
    scenarioNodes ordinal index scenarios = scenarioNodes ordinal index scenarios' := by
  induction h generalizing index with
  | nil => rfl
  | cons hscenario _ ih =>
    rw [scenarioNodes, scenarioNodes, ih, Label.escape_eq_escape_iff.mpr hscenario.precondition,
      Label.escape_eq_escape_iff.mpr hscenario.trigger,
      Label.escape_eq_escape_iff.mpr hscenario.outcome]

theorem storyGroup_of_alike {story story' : Story} (h : story.Alike story') (ordinal : Nat) :
    storyGroup ordinal story = storyGroup ordinal story' := by
  have htitle := Label.escape_eq_escape_iff.mpr h.title
  have hnodes : storyNodes ordinal story = storyNodes ordinal story' := by
    have hscenarios := h.scenarios
    rw [storyNodes, storyNodes]
    generalize story.scenarios = scenarios, story'.scenarios = scenarios' at hscenarios ⊢
    cases hscenarios with
    | nil => rw [htitle]
    | cons hfirst hrest => exact scenarioNodes_of_alike (.cons hfirst hrest) ordinal 0
  rw [storyGroup, storyGroup, hnodes, htitle, h.number, h.priority]

theorem nodesFor_of_alike {story story' : Story} (h : story.Alike story') :
    nodesFor story = nodesFor story' := by
  have hscenarios := h.scenarios
  rw [nodesFor, nodesFor]
  generalize story.scenarios = scenarios, story'.scenarios = scenarios' at hscenarios ⊢
  cases hscenarios with
  | nil => rfl
  | cons hfirst hrest => simp only [List.length_cons, hrest.length_eq]

theorem chart_of_alike (limits : Limits) {stories stories' : List Story}
    (h : List.Forall₂ Story.Alike stories stories') :
    chart limits stories = chart limits stories' := by
  have hcount : nodeCount stories = nodeCount stories' := by
    induction h with
    | nil => rfl
    | cons hstory _ ih => exact congrArg₂ (· + ·) (nodesFor_of_alike hstory) ih
  have hgroups : ∀ ordinal, groups ordinal stories = groups ordinal stories' := by
    clear hcount
    induction h with
    | nil => exact fun _ => rfl
    | cons hstory _ ih =>
      intro ordinal
      rw [groups, groups, storyGroup_of_alike hstory, ih]
  rw [chart, chart, hcount, hgroups]

theorem markup_eq_markup_iff (limits : Limits) (stories stories' : List Story) :
    (render limits stories).markup = (render limits stories').markup ↔
      List.Forall₂ Story.Alike stories stories' := by
  refine ⟨fun hmarkup => ?_, fun halike => congrArg Flowchart.render (chart_of_alike limits halike)⟩
  have hdrawing := congrArg Drawing.ofMarkup? hmarkup
  rw [render, render, Flowchart.ofMarkup?_render clean_groups drawn_groups,
    Flowchart.ofMarkup?_render clean_groups drawn_groups] at hdrawing
  have hgroups : (chart limits stories).drawing.groups = (chart limits stories').drawing.groups :=
    congrArg Drawing.groups (Option.some.inj hdrawing)
  have hshows : List.Forall₂ DrawnGroup.Shows (chart limits stories).drawing.groups stories :=
    forall₂_shows _ 1 stories
  have hshows' : List.Forall₂ DrawnGroup.Shows (chart limits stories').drawing.groups stories' :=
    forall₂_shows _ 1 stories'
  rw [← hgroups] at hshows'
  exact DrawnGroup.forall₂_alike hshows hshows'

/-- The markup of a journey tells what the stories say: it is the same only for stories that say
the same. So a region that is up to date with some stories is not with others that do not. -/
theorem markup_eq_iff_alike :
    (∀ (limits : Limits) (stories stories' : List Story),
      (render limits stories).markup = (render limits stories').markup ↔
        List.Forall₂ Story.Alike stories stories') ∧
    ∀ (document : Text) (regions : List Region) (anchor : Anchor) (limits : Limits)
      (stories stories' : List Story),
      (Update.plan document regions anchor (render limits stories)).1 = .unchanged →
        ((Update.plan document regions anchor (render limits stories')).1 = .unchanged ↔
          List.Forall₂ Story.Alike stories stories') := by
  refine ⟨markup_eq_markup_iff, fun document regions anchor limits stories stories' hfirst => ?_⟩
  rw [Update.plan_unchanged_iff] at hfirst ⊢
  obtain ⟨region, hregion, hterminated, hcontent⟩ := hfirst
  have hplain := plain_render limits stories
  have hplain' := plain_render limits stories'
  rw [← markup_eq_markup_iff limits, ← hplain.codeBlock_inj hplain', ← hcontent]
  constructor
  · rintro ⟨region', hregion', -, hcontent'⟩
    obtain rfl := Option.some.inj (hregion.symm.trans hregion')
    exact hcontent'
  · exact fun hblock => ⟨region, hregion, hterminated, hblock⟩

/-- A line break in a title and the place of a story do not show; a title that goes on like what
stands behind it does. -/
theorem markup_eq_iff_alike_lookalikes :
    let story (title : String) : Story := ⟨1, title, .p1, [], ⟨0, title.utf8ByteSize⟩⟩
    let block := Update.codeBlock (render ⟨1, 1⟩ [story "Pay now (P1)"]).markup
    let region : Region := ⟨"journey", ⟨0, 0⟩, ⟨0, 0⟩, String.ofList block, true⟩
    let outcome (title : String) :=
      (Update.plan [] [region] ⟨"", .afterHeading⟩ (render ⟨1, 1⟩ [story title])).1
    outcome "Pay now (P1)" = .unchanged ∧ outcome "Pay\r\nnow (P1)" = .unchanged ∧
      outcome "Pay now" ≠ .unchanged := by
  intro story block region outcome
  have hfirst : outcome "Pay now (P1)" = .unchanged :=
    Update.plan_unchanged_iff.mpr ⟨region, rfl, rfl, String.toList_ofList⟩
  have halike : (story "Pay now (P1)").Alike (story "Pay\r\nnow (P1)") :=
    ⟨rfl, rfl, by decide, .nil⟩
  refine ⟨hfirst, ?_, fun hother => ?_⟩
  · exact (markup_eq_iff_alike.2 [] [region] _ ⟨1, 1⟩ _ _ hfirst).mpr (.cons halike .nil)
  · obtain ⟨hdifferent, -⟩ := List.forall₂_cons.mp
      ((markup_eq_iff_alike.2 [] [region] _ ⟨1, 1⟩ _ _ hfirst).mp hother)
    exact absurd hdifferent.title (by decide)

end Journey
end DiagramSync
