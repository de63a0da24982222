import DiagramSync.Proofs.Story.Padding

/-!
The scopes of stories, said without a walk over the lines. Every story heading opens a scope, and
a line contributes to a story if nothing from behind the heading up to the line itself ends it.

Reading the stories of a document comes down to that: there is one story for each story heading,
made from the lines that contribute to it, and each warning is about one line or one story.
-/

namespace DiagramSync

/-! ### Lines and their roles -/

namespace StoryHeading

/-- The first ten bytes are `user story` in any ASCII letter case. -/
def BeginsUserStory (text : Text) : Prop :=
  ∃ words rest, text = words ++ rest ∧ Text.size words = 10 ∧
    words.map Char.toLower = "user story".toList

theorem announces_iff_beginsUserStory {text : Text} :
    announces text = true ↔ BeginsUserStory text := by
  rw [announces, Text.equalsNoCase, beq_iff_eq]
  constructor
  · intro hequal
    refine ⟨text.take 10, text.drop 10, (List.take_append_drop 10 text).symm, ?_, hequal⟩
    rw [← Text.size_map_toLower, hequal]
    decide
  · rintro ⟨words, rest, rfl, -, hwords⟩
    have hlength : words.length = 10 := by simpa using congrArg List.length hwords
    rw [List.take_left' hlength, hwords]
    decide

instance (text : Text) : Decidable (BeginsUserStory text) :=
  decidable_of_iff _ announces_iff_beginsUserStory

end StoryHeading

/-- What a line is to a reader of stories. -/
inductive Line.Role where
  | opensStory (header : StoryHeading) (level : Nat)
  /-- A heading that announces a story and is no story heading. -/
  | announcesStory
  | heading (level : Nat)
  | fenced
  | prose
  deriving DecidableEq

def Line.role (line : Line) : Role :=
  match Heading.ofLine? line with
  | some heading =>
    match StoryHeading.parse? heading.title with
    | some header => .opensStory header heading.level
    | none =>
      if StoryHeading.BeginsUserStory heading.title then .announcesStory
      else .heading heading.level
  | none => if line.fenced then .fenced else .prose

/-- Story headings, well-formed or not, end the scope of a story with a heading of `level`. Other
headings end it unless they are deeper. -/
def Line.Role.endsStory (level : Nat) : Role → Bool
  | .opensStory .. | .announcesStory => true
  | .heading own => own ≤ level
  | .fenced | .prose => false

/-- The scenario that an item is, if it is one. -/
def ScenarioItem.scenario? : ScenarioItem → Option Scenario
  | .scenario found => some found
  | .malformed | .unrelated => none

namespace Story

/-- The line at `index` contributes to the story with a heading of `level` at `start`. -/
def Contributes (lines : List Line) (level start index : Nat) : Prop :=
  start < index ∧ lines[index]?.map Line.role = some .prose ∧
    ∀ between ≤ index, start < between →
      ∀ line ∈ lines[between]?, line.role.endsStory level = false

instance (lines : List Line) (level start index : Nat) :
    Decidable (Contributes lines level start index) :=
  inferInstanceAs (Decidable (_ ∧ _))

/-- The lines that contribute to the story with a heading of `level` at `start`. -/
def contributions (lines : List Line) (level start : Nat) : List Line :=
  (lines.zipIdx.filter fun (_, index) => Contributes lines level start index).map Prod.fst

/-- The scenario on a line, if there is one. -/
def scenarioOn? (line : Line) : Option Scenario :=
  (ScenarioItem.read line.text).scenario?

/-- A story heading with its line, and the lines that contribute to the story. -/
structure Scope where
  line : Line
  header : StoryHeading
  body : List Line

namespace Scope

def story (scope : Scope) : Story where
  number := scope.header.number
  title := scope.header.title
  priority := scope.header.priority
  scenarios := scope.body.filterMap scenarioOn?
  span := scope.line.span

/-- The warnings about the lines that have the shape of a scenario only in part. -/
def malformedScenarios (scope : Scope) : List Diagnostic :=
  (scope.body.filter fun line => ScenarioItem.read line.text = .malformed).map
    (malformedScenario scope.header.number)

end Scope

/-- The scopes of the story headings among the lines, in order. -/
def scopes (lines : List Line) : List Scope :=
  lines.zipIdx.filterMap fun (line, index) =>
    match line.role with
    | .opensStory header level => some ⟨line, header, contributions lines level index⟩
    | _ => none

/-- The warnings about story headings with a number that is not above the one before. -/
def outOfOrder (scopes : List Scope) : List Diagnostic :=
  (scopes.zip scopes.tail).filterMap fun (previous, next) =>
    if next.header.number ≤ previous.header.number then
      some (outOfSequence next.header.number next.line)
    else
      none

/-! ### Scopes along the lines -/

/-- What the lines behind a story heading of `level` contribute, found from left to right. -/
def below (level : Nat) (lines : List Line) : List Line :=
  (lines.takeWhile fun line => !line.role.endsStory level).filter fun line => line.role = .prose

@[simp] theorem below_nil (level : Nat) : below level [] = [] := rfl

theorem below_cons (level : Nat) (line : Line) (rest : List Line) :
    below level (line :: rest) =
      if line.role.endsStory level then []
      else if line.role = .prose then line :: below level rest
      else below level rest := by
  cases hends : line.role.endsStory level <;> simp [below, hends, List.filter_cons]

/-- The scopes of the story headings, found from left to right. -/
def scopesFrom : List Line → List Scope
  | [] => []
  | line :: rest =>
    match line.role with
    | .opensStory header level => ⟨line, header, below level rest⟩ :: scopesFrom rest
    | _ => scopesFrom rest

/-- The line at `index` contributes to a story with a heading in front of all the lines. -/
def ContributesBelow (lines : List Line) (level index : Nat) : Prop :=
  lines[index]?.map Line.role = some .prose ∧
    ∀ between ≤ index, ∀ line ∈ lines[between]?, line.role.endsStory level = false

instance (lines : List Line) (level index : Nat) : Decidable (ContributesBelow lines level index) :=
  inferInstanceAs (Decidable (_ ∧ _))

theorem contributesBelow_zero {line : Line} {rest : List Line} {level : Nat} :
    ContributesBelow (line :: rest) level 0 ↔ line.role = .prose := by
  simp only [ContributesBelow, List.getElem?_cons_zero, Option.map_some, Option.some.injEq,
    Nat.le_zero_eq, forall_eq, Option.mem_def, forall_eq']
  constructor
  · exact And.left
  · intro hprose
    exact ⟨hprose, by rw [hprose]; rfl⟩

theorem contributesBelow_succ {line : Line} {rest : List Line} {level index : Nat} :
    ContributesBelow (line :: rest) level (index + 1) ↔
      line.role.endsStory level = false ∧ ContributesBelow rest level index := by
  unfold ContributesBelow
  rw [List.getElem?_cons_succ]
  constructor
  · rintro ⟨hprose, hopen⟩
    refine ⟨hopen 0 (by omega) line rfl, hprose, fun between hle => ?_⟩
    exact hopen (between + 1) (by omega)
  · rintro ⟨hline, hprose, hopen⟩
    refine ⟨hprose, fun between hle => ?_⟩
    cases between with
    | zero => simpa using hline
    | succ between => exact hopen between (by omega)

/-- A line that ends the scope keeps itself and all lines behind it out; any other line can be
taken off. -/
theorem filter_contributesBelow (level : Nat) (lines : List Line) :
    (lines.zipIdx.filter fun (_, index) => ContributesBelow lines level index).map Prod.fst =
      below level lines := by
  induction lines with
  | nil => rfl
  | cons line rest ih =>
    rw [below_cons, ← ih, List.zipIdx_cons, List.zipIdx_succ, List.filter_cons, List.filter_map]
    simp only [Function.comp_def, contributesBelow_zero, contributesBelow_succ]
    cases hends : line.role.endsStory level with
    | true =>
      have hprose : line.role ≠ .prose := by
        intro hprose
        rw [hprose] at hends
        contradiction
      simp [hprose]
    | false => by_cases hprose : line.role = .prose <;> simp [hprose, Function.comp_def]

theorem contributes_append_cons {before : List Line} {head : Line} {rest : List Line}
    {level index : Nat} :
    Contributes (before ++ head :: rest) level before.length (before.length + 1 + index) ↔
      ContributesBelow rest level index := by
  have hbehind : ∀ between, (before ++ head :: rest)[before.length + 1 + between]? =
      rest[between]? := by
    intro between
    rw [List.getElem?_append_right (by omega)]
    simp [show before.length + 1 + between - before.length = between + 1 by omega]
  unfold Contributes ContributesBelow
  rw [hbehind]
  constructor
  · rintro ⟨-, hprose, hopen⟩
    refine ⟨hprose, fun between hle => ?_⟩
    have hline := hopen (before.length + 1 + between) (by omega) (by omega)
    rwa [hbehind] at hline
  · rintro ⟨hprose, hopen⟩
    refine ⟨by omega, hprose, fun between hle hlt => ?_⟩
    obtain ⟨offset, rfl⟩ := Nat.exists_eq_add_of_le (show before.length + 1 ≤ between by omega)
    rw [hbehind]
    exact hopen offset (by omega)

/-- Only what is behind a story heading contributes to its story. -/
theorem contributions_append_cons (before : List Line) (head : Line) (rest : List Line)
    (level : Nat) :
    contributions (before ++ head :: rest) level before.length = below level rest := by
  have hfront : ∀ pair ∈ before.zipIdx,
      ¬ Contributes (before ++ head :: rest) level before.length pair.2 := by
    rintro ⟨line, index⟩ hpair ⟨hlt, -⟩
    have hindex := List.snd_lt_of_mem_zipIdx hpair
    dsimp only at hlt hindex
    omega
  have hhead : ¬ Contributes (before ++ head :: rest) level before.length before.length :=
    fun hcontributes => Nat.lt_irrefl _ hcontributes.1
  rw [contributions, List.zipIdx_append, List.filter_append,
    List.filter_eq_nil_iff.mpr fun pair hpair => by simpa using hfront pair hpair,
    List.nil_append, List.zipIdx_cons, Nat.zero_add, List.filter_cons_of_neg (by simpa using hhead),
    List.zipIdx_eq_map_add, List.filter_map, List.map_map, ← filter_contributesBelow]
  simp only [Function.comp_def, contributes_append_cons]

theorem filterMap_zipIdx_eq_scopesFrom (before rest : List Line) :
    ((rest.zipIdx before.length).filterMap fun (line, index) =>
      match line.role with
      | .opensStory header level =>
        some (Scope.mk line header (contributions (before ++ rest) level index))
      | _ => none) = scopesFrom rest := by
  induction rest generalizing before with
  | nil => rfl
  | cons line rest ih =>
    have hrest := ih (before ++ [line])
    rw [List.append_assoc, List.singleton_append, List.length_append, List.length_singleton]
      at hrest
    rw [List.zipIdx_cons, List.filterMap_cons, hrest, scopesFrom]
    cases hrole : line.role <;> simp only [hrole, contributions_append_cons]

theorem scopes_eq_scopesFrom (lines : List Line) : scopes lines = scopesFrom lines :=
  filterMap_zipIdx_eq_scopesFrom [] lines

/-! ### Reading along the lines -/

theorem collect_cons (opened : Option Open) (last : Option Nat) (line : Line) (rest : List Line) :
    collect opened last (line :: rest) =
      match line.role with
      | .opensStory header level =>
        close opened
          ((collect (some ⟨ofHeader header line, level⟩) (some header.number) rest).warn?
            (sequenceWarning? last header.number line))
      | .announcesStory => close opened ((collect none last rest).warn (malformedHeader line))
      | .heading level =>
        if opened.any fun opening => level ≤ opening.level then
          close opened (collect none last rest)
        else
          collect opened last rest
      | .fenced => collect opened last rest
      | .prose =>
        match opened with
        | some ⟨story, level⟩ =>
          match ScenarioItem.read line.text with
          | .scenario scenario => collect (some ⟨story.addScenario scenario, level⟩) last rest
          | .malformed => (collect opened last rest).warn (malformedScenario story.number line)
          | .unrelated => collect opened last rest
        | none => collect none last rest := by
  rw [collect.eq_def, Line.role]
  dsimp only
  cases hheading : Heading.ofLine? line with
  | none => cases line.fenced <;> rfl
  | some heading =>
    have hfenced : line.fenced = false := by
      cases hfenced : line.fenced with
      | false => rfl
      | true => simp [Heading.ofLine?, hfenced] at hheading
    simp only [hfenced, Bool.false_eq_true, if_false]
    cases StoryHeading.parse? heading.title with
    | some header => rfl
    | none =>
      simp only [← StoryHeading.announces_iff_beginsUserStory]
      cases StoryHeading.announces heading.title with
      | true => rfl
      | false => cases opened <;> simp

/-- What the lines behind add to the story that is open. -/
def Open.complete (opened : Open) (lines : List Line) : Story :=
  { opened.story with
    scenarios := opened.story.scenarios ++ (below opened.level lines).filterMap scenarioOn? }

theorem records_collect (opened : Option Open) (last : Option Nat) (lines : List Line) :
    (collect opened last lines).records =
      (opened.map fun opening => opening.complete lines).toList ++
        (scopesFrom lines).map Scope.story := by
  induction lines generalizing opened last with
  | nil =>
    rw [collect, records_close]
    cases opened <;> simp [Open.complete, scopesFrom]
  | cons line rest ih =>
    have hbelow : ∀ level, below level (line :: rest) = _ := fun level => below_cons level line rest
    rw [collect_cons, scopesFrom]
    cases hrole : line.role with
    | opensStory header level =>
      cases opened <;>
        simp [records_close, ih, Open.complete, hbelow, hrole, Line.Role.endsStory, Scope.story,
          ofHeader]
    | announcesStory =>
      cases opened <;>
        simp [records_close, ih, Open.complete, hbelow, hrole, Line.Role.endsStory]
    | heading level =>
      cases opened with
      | none => simp [ih]
      | some opening =>
        by_cases hends : level ≤ opening.level <;>
          simp [records_close, ih, Open.complete, hbelow, hrole, Line.Role.endsStory, hends]
    | fenced =>
      cases opened <;> simp [ih, Open.complete, hbelow, hrole, Line.Role.endsStory]
    | prose =>
      cases opened with
      | none => simp [ih]
      | some opening =>
        cases hitem : ScenarioItem.read line.text <;>
          simp [ih, Open.complete, hbelow, hrole, Line.Role.endsStory, scenarioOn?, hitem,
            ScenarioItem.scenario?, Story.addScenario]

/-! ### Warnings along the lines -/

@[simp] theorem code_malformedHeader (line : Line) :
    (malformedHeader line).code = some .malformedStoryHeader := rfl

@[simp] theorem code_malformedScenario (number : Nat) (line : Line) :
    (malformedScenario number line).code = some .malformedScenario := rfl

@[simp] theorem code_withoutScenarios (story : Story) :
    story.withoutScenarios.code = some .storyWithoutScenarios := rfl

@[simp] theorem code_outOfSequence (number : Nat) (line : Line) :
    (outOfSequence number line).code = some .storyOutOfSequence := rfl

theorem sequenceWarning?_eq (last : Option Nat) (number : Nat) (line : Line) :
    sequenceWarning? last number line =
      if last.any fun previous => number ≤ previous then some (outOfSequence number line)
      else none := by
  cases last <;> simp [sequenceWarning?]

theorem filter_sequenceWarning? (code : Code) (last : Option Nat) (number : Nat) (line : Line) :
    ((sequenceWarning? last number line).toList.filter fun diagnostic =>
        diagnostic.code = some code) =
      if code = .storyOutOfSequence then (sequenceWarning? last number line).toList else [] := by
  rw [sequenceWarning?_eq]
  by_cases hcode : Code.storyOutOfSequence = code
  · subst hcode
    split <;> simp
  · split <;> simp [hcode, Ne.symm hcode]

theorem withCode_close (code : Code) (opened : Option Open) (rest : Findings Story) :
    (close opened rest).withCode code =
      (if code = .storyWithoutScenarios then
        ((opened.map Open.story).toList.filter fun story => !story.hasScenarios).map
          withoutScenarios
      else
        []) ++ rest.withCode code := by
  cases opened with
  | none => simp [close]
  | some opening =>
    by_cases hcode : Code.storyWithoutScenarios = code
    · subst hcode
      cases hscenarios : opening.story.hasScenarios <;> simp [close, hscenarios]
    · cases hscenarios : opening.story.hasScenarios <;>
        simp [close, hcode, hscenarios, Ne.symm hcode]

theorem withCode_malformedStoryHeader_collect (opened : Option Open) (last : Option Nat)
    (lines : List Line) :
    (collect opened last lines).withCode .malformedStoryHeader =
      (lines.filter fun line => line.role = .announcesStory).map malformedHeader := by
  induction lines generalizing opened last with
  | nil => simp [collect, withCode_close]
  | cons line rest ih =>
    rw [collect_cons]
    cases hrole : line.role with
    | opensStory header level => simp [withCode_close, filter_sequenceWarning?, ih, hrole]
    | announcesStory => simp [withCode_close, ih, hrole]
    | heading level =>
      dsimp only
      split <;> simp [withCode_close, ih, hrole]
    | fenced => simp [ih, hrole]
    | prose =>
      cases opened with
      | none => simp [ih, hrole]
      | some opening => cases ScenarioItem.read line.text <;> simp [ih, hrole]

theorem withCode_storyWithoutScenarios_collect (opened : Option Open) (last : Option Nat)
    (lines : List Line) :
    (collect opened last lines).withCode .storyWithoutScenarios =
      ((collect opened last lines).records.filter fun story => !story.hasScenarios).map
        withoutScenarios := by
  induction lines generalizing opened last with
  | nil => simp [collect, withCode_close, records_close]
  | cons line rest ih =>
    rw [collect_cons]
    cases line.role with
    | opensStory header level =>
      simp [withCode_close, records_close, filter_sequenceWarning?, ih]
    | announcesStory => simp [withCode_close, records_close, ih]
    | heading level =>
      dsimp only
      split <;> simp [withCode_close, records_close, ih]
    | fenced => exact ih opened last
    | prose =>
      cases opened with
      | none => exact ih none last
      | some opening => cases ScenarioItem.read line.text <;> simp [ih]

/-- The warnings about story headings behind one with the number `last`. -/
def outOfOrderFrom : (last : Option Nat) → List Scope → List Diagnostic
  | _, [] => []
  | last, scope :: rest =>
    (sequenceWarning? last scope.header.number scope.line).toList ++
      outOfOrderFrom (some scope.header.number) rest

theorem outOfOrderFrom_cons (scope : Scope) (rest : List Scope) :
    outOfOrderFrom (some scope.header.number) rest = outOfOrder (scope :: rest) := by
  induction rest generalizing scope with
  | nil => rfl
  | cons next rest ih =>
    by_cases hle : next.header.number ≤ scope.header.number <;>
      simp [outOfOrderFrom, ih, outOfOrder, sequenceWarning?, hle]

theorem outOfOrderFrom_none (scopes : List Scope) :
    outOfOrderFrom none scopes = outOfOrder scopes := by
  cases scopes with
  | nil => rfl
  | cons scope rest => exact outOfOrderFrom_cons scope rest

theorem withCode_storyOutOfSequence_collect (opened : Option Open) (last : Option Nat)
    (lines : List Line) :
    (collect opened last lines).withCode .storyOutOfSequence =
      outOfOrderFrom last (scopesFrom lines) := by
  induction lines generalizing opened last with
  | nil => simp [collect, withCode_close, scopesFrom, outOfOrderFrom]
  | cons line rest ih =>
    rw [collect_cons, scopesFrom]
    cases line.role with
    | opensStory header level => simp [withCode_close, filter_sequenceWarning?, ih, outOfOrderFrom]
    | announcesStory => simp [withCode_close, ih]
    | heading level =>
      dsimp only
      split <;> simp [withCode_close, ih]
    | fenced => exact ih opened last
    | prose =>
      cases opened with
      | none => exact ih none last
      | some opening => cases ScenarioItem.read line.text <;> simp [ih]

/-- The warnings about the lines behind that belong to the story that is open. -/
def Open.malformedScenarios (opened : Open) (lines : List Line) : List Diagnostic :=
  ((below opened.level lines).filter fun line => ScenarioItem.read line.text = .malformed).map
    (malformedScenario opened.story.number)

theorem withCode_malformedScenario_collect (opened : Option Open) (last : Option Nat)
    (lines : List Line) :
    (collect opened last lines).withCode .malformedScenario =
      (opened.toList.flatMap fun opening => opening.malformedScenarios lines) ++
        (scopesFrom lines).flatMap Scope.malformedScenarios := by
  induction lines generalizing opened last with
  | nil => cases opened <;> simp [collect, withCode_close, scopesFrom, Open.malformedScenarios]
  | cons line rest ih =>
    have hbelow : ∀ level, below level (line :: rest) = _ := fun level => below_cons level line rest
    rw [collect_cons, scopesFrom]
    cases hrole : line.role with
    | opensStory header level =>
      cases opened <;>
        simp [withCode_close, filter_sequenceWarning?, ih, Open.malformedScenarios, hbelow, hrole,
          Line.Role.endsStory, Scope.malformedScenarios, ofHeader]
    | announcesStory =>
      cases opened <;>
        simp [withCode_close, ih, Open.malformedScenarios, hbelow, hrole, Line.Role.endsStory]
    | heading level =>
      cases opened with
      | none => simp [ih]
      | some opening =>
        by_cases hends : level ≤ opening.level <;>
          simp [withCode_close, ih, Open.malformedScenarios, hbelow, hrole, Line.Role.endsStory,
            hends]
    | fenced =>
      cases opened <;> simp [ih, Open.malformedScenarios, hbelow, hrole, Line.Role.endsStory]
    | prose =>
      cases opened with
      | none => simp [ih]
      | some opening =>
        cases hitem : ScenarioItem.read line.text <;>
          simp [ih, Open.malformedScenarios, hbelow, hrole, Line.Role.endsStory, hitem,
            Story.addScenario]

/-- The kinds of warnings about stories. -/
def codes : List Code :=
  [.malformedStoryHeader, .malformedScenario, .storyWithoutScenarios, .storyOutOfSequence]

/-- A warning about stories. What it points at is the place of a line that was read, or of the
story that was open when the reading began. -/
inductive Warns (p : Span → Prop) : Diagnostic → Prop where
  | malformedHeader (line : Line) : p line.span → Warns p (malformedHeader line)
  | malformedScenario (number : Nat) (line : Line) :
      p line.span → Warns p (malformedScenario number line)
  | withoutScenarios (story : Story) : p story.span → Warns p story.withoutScenarios
  | outOfSequence (number : Nat) (line : Line) : p line.span → Warns p (outOfSequence number line)

section Warns

variable {p : Span → Prop} {diagnostic : Diagnostic} {opened : Option Open}

theorem warns_of_mem_close {rest : Findings Story}
    (hopened : ∀ opening ∈ opened, p opening.story.span)
    (hrest : diagnostic ∈ rest.diagnostics → Warns p diagnostic)
    (h : diagnostic ∈ (close opened rest).diagnostics) : Warns p diagnostic := by
  cases opened with
  | none => exact hrest h
  | some opening =>
    rw [close] at h
    split at h
    · exact hrest h
    · obtain rfl | h := List.mem_cons.mp h
      · exact .withoutScenarios opening.story (hopened opening rfl)
      · exact hrest h

theorem warns_of_mem_sequenceWarning? {last : Option Nat} {number : Nat} {line : Line}
    (hline : p line.span) (h : diagnostic ∈ sequenceWarning? last number line) :
    Warns p diagnostic := by
  rw [sequenceWarning?_eq] at h
  split at h
  · obtain rfl := Option.mem_some_iff.mp h
    exact .outOfSequence number line hline
  · contradiction

/-- There are no other warnings. The induction is on the lines; the story that is open keeps the
place of its heading. -/
theorem warns_of_mem_collect {last : Option Nat} {lines : List Line}
    (hopened : ∀ opening ∈ opened, p opening.story.span) (hlines : ∀ line ∈ lines, p line.span)
    (h : diagnostic ∈ (collect opened last lines).diagnostics) : Warns p diagnostic := by
  induction lines generalizing opened last with
  | nil => exact warns_of_mem_close hopened (fun hmem => absurd hmem List.not_mem_nil) h
  | cons line rest ih =>
    rw [List.forall_mem_cons] at hlines
    obtain ⟨hline, hrest⟩ := hlines
    have hnone : ∀ opening ∈ (none : Option Open), p opening.story.span := by simp
    have hsome : ∀ {opening : Open}, p opening.story.span →
        ∀ other ∈ some opening, p other.story.span := by
      rintro opening hspan _ ⟨⟩
      exact hspan
    rw [collect_cons] at h
    generalize line.role = role at h
    cases role with
    | opensStory header level =>
      refine warns_of_mem_close hopened (fun hmem => ?_) h
      obtain hmem | hmem := Findings.mem_diagnostics_warn?.mp hmem
      · exact warns_of_mem_sequenceWarning? hline hmem
      · exact ih (hsome hline) hrest hmem
    | announcesStory =>
      refine warns_of_mem_close hopened (fun hmem => ?_) h
      obtain rfl | hmem := List.mem_cons.mp hmem
      · exact .malformedHeader line hline
      · exact ih hnone hrest hmem
    | heading level =>
      dsimp only at h
      split at h
      · exact warns_of_mem_close hopened (ih hnone hrest) h
      · exact ih hopened hrest h
    | fenced => exact ih hopened hrest h
    | prose =>
      cases opened with
      | none => exact ih hnone hrest h
      | some opening =>
        dsimp only at h
        split at h
        · refine ih (hsome ?_) hrest h
          exact hopened opening rfl
        · obtain rfl | hmem := List.mem_cons.mp h
          · exact .malformedScenario opening.story.number line hline
          · exact ih hopened hrest hmem
        · exact ih hopened hrest h

end Warns

theorem code_of_mem_collect {opened : Option Open} {last : Option Nat} {lines : List Line}
    {diagnostic : Diagnostic} (h : diagnostic ∈ (collect opened last lines).diagnostics) :
    ∃ code ∈ codes, diagnostic.code = some code := by
  cases warns_of_mem_collect (p := fun _ => True) (by simp) (by simp) h <;>
    exact ⟨_, by simp [codes], rfl⟩

/-! ### Stories and their scopes -/

/-- A line contributes to one story at most: a story heading in between would end the scope. -/
theorem Contributes.start_eq {lines : List Line} {level level' start start' index : Nat}
    {header header' : StoryHeading}
    (hstart : lines[start]?.map Line.role = some (.opensStory header level))
    (hstart' : lines[start']?.map Line.role = some (.opensStory header' level'))
    (h : Contributes lines level start index) (h' : Contributes lines level' start' index) :
    start = start' := by
  have hends : ∀ {start start' level level' : Nat} {header : StoryHeading},
      lines[start']?.map Line.role = some (.opensStory header level') →
        Contributes lines level start index → start' < index → ¬ start < start' := by
    intro start start' level level' header hopens hcontributes hbefore hlt
    obtain ⟨line, hline, hrole⟩ := Option.map_eq_some_iff.mp hopens
    have hopen := hcontributes.2.2 start' (by omega) hlt line hline
    rw [hrole] at hopen
    contradiction
  have hle := hends hstart' h h'.1
  have hge := hends hstart h' h.1
  omega

/-- The stories of a document are those of its story headings, each made from the lines that
contribute to it, and no line contributes to two of them. There is one warning for each heading
that only announces a story, for each contributing line with the shape of a scenario in part, for
each story without scenarios and for each story number that is not above the one before, and
there are no other warnings. -/
theorem ofDocument_scopes (document : Text) :
    let lines := Line.scan document
    let found := ofDocument document
    found.records = (scopes lines).map Scope.story ∧
      (∀ start start' index level level' header header',
        lines[start]?.map Line.role = some (.opensStory header level) →
        lines[start']?.map Line.role = some (.opensStory header' level') →
        Contributes lines level start index → Contributes lines level' start' index →
        start = start') ∧
      found.withCode .malformedStoryHeader =
        (lines.filter fun line => line.role = .announcesStory).map malformedHeader ∧
      found.withCode .malformedScenario = (scopes lines).flatMap Scope.malformedScenarios ∧
      found.withCode .storyWithoutScenarios =
        (found.records.filter fun story => !story.hasScenarios).map withoutScenarios ∧
      found.withCode .storyOutOfSequence = outOfOrder (scopes lines) ∧
      ∀ diagnostic ∈ found.diagnostics, ∃ code ∈ codes, diagnostic.code = some code := by
  intro lines found
  rw [scopes_eq_scopesFrom]
  refine ⟨?_, ?_, ?_, ?_, ?_, ?_, ?_⟩
  · exact records_collect none none lines
  · intro start start' index level level' header header' hstart hstart' h h'
    exact h.start_eq hstart hstart' h'
  · exact withCode_malformedStoryHeader_collect none none lines
  · exact withCode_malformedScenario_collect none none lines
  · exact withCode_storyWithoutScenarios_collect none none lines
  · rw [← outOfOrderFrom_none]
    exact withCode_storyOutOfSequence_collect none none lines
  · exact fun diagnostic => code_of_mem_collect

end Story
end DiagramSync
