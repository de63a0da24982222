import DiagramSync.Proofs.Engine.Settled

/-!
What readers see of a document: its lines outside of code blocks, blank ones aside. Two documents
that show the same lines make the same model, but for the places in it.
-/

namespace DiagramSync

open Text

namespace Line

/-- What the lines show to readers. -/
def shown (lines : List Line) : List Text :=
  (lines.filter isShown).map Line.text

theorem shown_append (a b : List Line) : shown (a ++ b) = shown a ++ shown b := by
  simp [shown]

theorem fenced_or_isBlank_of_hidden {line : Line} (h : line.isShown = false) :
    line.fenced = true ∨ Text.isBlank line.text = true := by
  simp only [isShown, Bool.and_eq_false_iff, Bool.not_eq_false'] at h
  exact h

end Line

/-! ### Headings -/

namespace Heading

theorem ofText?_of_isBlank {text : Text} (h : Text.isBlank text = true) : ofText? text = none := by
  have hsharp : ∀ c ∈ text, ¬ (c == '#') = true := by
    rintro c hc hsharp
    rw [beq_iff_eq] at hsharp
    subst hsharp
    exact absurd (List.all_eq_true.mp h _ hc) (by decide)
  have htake : ∀ body : Text, (∀ c ∈ body, c ∈ text) → body.takeWhile (· == '#') = [] := by
    intro body hbody
    cases body with
    | nil => rfl
    | cons c cs => exact List.takeWhile_cons_of_neg (hsharp c (hbody c List.mem_cons_self))
  simp only [ofText?]
  rw [htake _ fun c => List.mem_of_mem_drop]
  rfl

theorem ofLine?_of_hidden {line : Line} (h : line.isShown = false) : ofLine? line = none := by
  obtain hfenced | hblank := Line.fenced_or_isBlank_of_hidden h
  · rw [ofLine?, if_pos hfenced]
  · rw [ofLine?, ofText?_of_isBlank hblank, ite_self]

end Heading

/-! ### Stories -/

theorem ScenarioItem.read_of_isBlank {text : Text} (h : Text.isBlank text = true) :
    read text = .unrelated := by
  have hwhite : ∀ c ∈ text, isWhite c = true := List.all_eq_true.mp h
  have hmarks : '*' ∉ text ∧ '_' ∉ text :=
    ⟨fun hmem => absurd (hwhite _ hmem) (by decide), fun hmem => absurd (hwhite _ hmem) (by decide)⟩
  have hdigit : ∀ c, isWhite c = true → c.isDigit = false := by
    intro c hc
    by_contra hnot
    have halphanum : isAsciiAlphanum c = true := by simp_all [isAsciiAlphanum, Char.isAlphanum]
    rw [Label.isWhite_of_isIdChar (Label.isIdChar_of_isAsciiAlphanum halphanum)] at hc
    contradiction
  have htake : (skipSpaces text).takeWhile Char.isDigit = [] := by
    have hsub : ∀ c ∈ skipSpaces text, c ∈ text := fun c hc => (List.dropWhile_sublist _).subset hc
    cases hskip : skipSpaces text with
    | nil => rfl
    | cons c cs =>
      rw [List.takeWhile_cons_of_neg]
      rw [hdigit c (hwhite c (hsub c (hskip ▸ List.mem_cons_self)))]
      simp
  have hdrop : dropStrong text = text := by
    rw [dropStrong, show "**".toList = '*' :: ['*'] from rfl, replaceAll_of_not_mem hmarks.1,
      show "__".toList = '_' :: ['_'] from rfl, replaceAll_of_not_mem hmarks.2]
  rw [read, hdrop]
  simp [itemBody?, span1?, htake]

namespace Story

theorem collect_hidden {line : Line} (h : line.isShown = false) (opened : Option Open)
    (last : Option Nat) (rest : List Line) :
    collect opened last (line :: rest) = collect opened last rest := by
  cases opened with
  | none => simp [collect, Heading.ofLine?_of_hidden h]
  | some opening =>
    rw [collect, Heading.ofLine?_of_hidden h]
    split
    · rfl
    · rename_i hfenced
      have hblank := (Line.fenced_or_isBlank_of_hidden h).resolve_left hfenced
      rw [ScenarioItem.read_of_isBlank hblank]

theorem collect_filter (opened : Option Open) (last : Option Nat) (lines : List Line) :
    collect opened last (lines.filter Line.isShown) = collect opened last lines := by
  induction lines generalizing opened last with
  | nil => rfl
  | cons line rest ih =>
    by_cases hshown : line.isShown = true
    · rw [List.filter_cons_of_pos hshown]
      simp only [collect, ih]
    · rw [List.filter_cons_of_neg hshown, ih, collect_hidden (by simpa using hshown)]

end Story

/-! ### Entities -/

namespace EntityEntry

theorem collect_filter (opened : Option EntityEntry) (closed : List EntityEntry)
    (lines : List Line) :
    collect opened closed (lines.filter Line.isShown) = collect opened closed lines := by
  induction lines generalizing opened closed with
  | nil => rfl
  | cons line rest ih =>
    by_cases hshown : line.isShown = true
    · rw [List.filter_cons_of_pos hshown]
      simp only [collect, ih]
    · have hskip : (line.fenced || line.isBlank) = true :=
        Bool.or_eq_true_iff.mpr (Line.fenced_or_isBlank_of_hidden (by simpa using hshown))
      rw [List.filter_cons_of_neg hshown, ih, collect, if_pos hskip]

theorem sectionBody_filter (level : Nat) (lines : List Line) :
    sectionBody level (lines.filter Line.isShown) =
      (sectionBody level lines).filter Line.isShown := by
  induction lines with
  | nil => rfl
  | cons line rest ih =>
    unfold sectionBody at ih ⊢
    by_cases hshown : line.isShown = true
    · rw [List.filter_cons_of_pos hshown, List.takeWhile_cons, List.takeWhile_cons, ih,
        apply_ite (List.filter Line.isShown), List.filter_cons_of_pos hshown, List.filter_nil]
    · rw [List.filter_cons_of_neg hshown, ih, List.takeWhile_cons,
        Heading.ofLine?_of_hidden (by simpa using hshown), if_pos rfl,
        List.filter_cons_of_neg hshown]

theorem section?_filter (lines : List Line) : section? (lines.filter Line.isShown) =
    (section? lines).map (List.filter Line.isShown) := by
  induction lines with
  | nil => rfl
  | cons line rest ih =>
    by_cases hshown : line.isShown = true
    · rw [List.filter_cons_of_pos hshown, section?, section?]
      split
      · split
        · rw [sectionBody_filter, Option.map_some]
        · exact ih
      · exact ih
    · rw [List.filter_cons_of_neg hshown, ih, section?,
        Heading.ofLine?_of_hidden (by simpa using hshown)]

end EntityEntry

theorem Entity.map_ofSection_filter (lines : List Line) :
    (EntityEntry.section? (lines.filter Line.isShown)).map Entity.ofSection =
      (EntityEntry.section? lines).map Entity.ofSection := by
  rw [EntityEntry.section?_filter, Option.map_map]
  congr 1
  funext body
  rw [Function.comp_apply, ofSection, ofSection, EntityEntry.ofSection, EntityEntry.ofSection,
    EntityEntry.collect_filter]

/-! ### Models -/

/-- Shown lines that say the same. -/
theorem Padded.of_shown {lines lines' : List Line} (h : Line.shown lines = Line.shown lines')
    (ended : Prop) :
    Padded ended (lines.filter Line.isShown) (lines'.filter Line.isShown) := by
  have hall : ∀ kept kept' : List Line, (∀ line ∈ kept, line.isShown = true) →
      (∀ line ∈ kept', line.isShown = true) → kept.map Line.text = kept'.map Line.text →
      ∀ ended, Padded ended kept kept' := by
    intro kept
    induction kept with
    | nil =>
      intro kept' _ _ htexts ended
      obtain rfl : kept' = [] := by simpa using htexts.symm
      exact .nil ended
    | cons line rest ih =>
      intro kept' hkept hkept' htexts ended
      cases kept' with
      | nil => contradiction
      | cons line' rest' =>
        rw [List.forall_mem_cons] at hkept hkept'
        obtain ⟨htext, hrest⟩ := List.cons.inj htexts
        have hfenced : line'.fenced = line.fenced := by
          have := hkept.1
          have := hkept'.1
          simp_all [Line.isShown]
        exact .keep line line' htext.symm hfenced (ih rest' hkept.2 hkept'.2 hrest _)
  exact hall _ _ (fun line hline => (List.mem_filter.mp hline).2)
    (fun line hline => (List.mem_filter.mp hline).2) h ended

/-- Documents that show the same lines have the same stories, and readers warn of the same. -/
theorem Story.ofDocument_of_shown {document document' : Text}
    (h : Line.shown (Line.scan document) = Line.shown (Line.scan document')) :
    (ofDocument document).unplaced unplaced = (ofDocument document').unplaced unplaced := by
  rw [ofDocument, ofDocument, ← collect_filter, ← collect_filter _ _ (Line.scan document')]
  exact collect_padded (Padded.of_shown h True) rfl none

theorem Entity.ofDocument?_of_shown {document document' : Text}
    (h : Line.shown (Line.scan document) = Line.shown (Line.scan document')) :
    (ofDocument? document).map (Findings.unplaced id) =
      (ofDocument? document').map (Findings.unplaced id) := by
  rw [ofDocument?, ofDocument?, ← map_ofSection_filter,
    ← map_ofSection_filter (Line.scan document')]
  exact map_ofSection_padded (Padded.of_shown h True)

theorem Model.agree_of_shown {document document' : Text}
    (h : Line.shown (Line.scan document) = Line.shown (Line.scan document')) :
    (ofDocument document).1.Agree (ofDocument document').1 :=
  agree_of_read (Story.ofDocument_of_shown h) (Entity.ofDocument?_of_shown h)

end DiagramSync
