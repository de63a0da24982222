import DiagramSync.Proofs.Document.Places
import DiagramSync.Proofs.Story.Scope
import DiagramSync.Proofs.Text.Search

/-!
Headings that begin with the words of a story heading. One that is none should be warned about and
end the story in front of it, whatever its level. Whether it does depends on the blanks between
the words: the grammar of story headings takes any, the test for what announces a story takes one
space.
-/

namespace DiagramSync

open Text

namespace Story

theorem close_append (opened : Option Open) (first second : Findings Story) :
    (close opened first).append second = close opened (first.append second) := by
  cases opened with
  | none => rfl
  | some opening =>
    rw [close, close]
    split <;> rfl

/-- The line has the role of a heading that opens a story, or should. -/
def HeadsStory (line : Line) : Prop :=
  (∃ header level, line.role = .opensStory header level) ∨ line.role = .announcesStory

theorem collect_append_cons {line : Line} (h : HeadsStory line) (opened : Option Open)
    (last : Option Nat) (before after : List Line) :
    ∃ last', collect opened last (before ++ line :: after) =
      (collect opened last before).append (collect none last' (line :: after)) := by
  induction before generalizing opened last with
  | nil =>
    refine ⟨last, ?_⟩
    rw [List.nil_append, collect_cons, collect_cons, collect, close_append, Findings.empty_append]
    obtain ⟨header, level, hrole⟩ | hrole := h <;> rw [hrole] <;> rfl
  | cons first before ih =>
    rw [List.cons_append, collect_cons, collect_cons]
    cases first.role with
    | opensStory header level =>
      obtain ⟨last', hlater⟩ := ih (some ⟨ofHeader header first, level⟩) (some header.number)
      exact ⟨last', by simp only [hlater, close_append, Findings.warn?_append]⟩
    | announcesStory =>
      obtain ⟨last', hlater⟩ := ih none last
      exact ⟨last', by simp only [hlater, close_append, Findings.warn_append]⟩
    | heading level =>
      dsimp only
      split
      · obtain ⟨last', hlater⟩ := ih none last
        exact ⟨last', by rw [hlater, close_append]⟩
      · exact ih opened last
    | fenced => exact ih opened last
    | prose =>
      cases opened with
      | none => exact ih none last
      | some opening =>
        cases ScenarioItem.read first.text with
        | scenario found => exact ih (some ⟨opening.story.addScenario found, opening.level⟩) last
        | malformed =>
          obtain ⟨last', hlater⟩ := ih (some opening) last
          exact ⟨last', by simp only [hlater, Findings.warn_append]⟩
        | unrelated => exact ih (some opening) last

end Story

/-! ### The words of a story heading -/

namespace StoryHeading

/-- The title begins with the two words of a story heading. Between them are these blanks, and
behind them is one blank at least. -/
def Begins (blanks title : Text) : Prop :=
  ∃ user story blank rest, title = user ++ (blanks ++ (story ++ blank :: rest)) ∧
    user.map Char.toLower = "user".toList ∧ story.map Char.toLower = "story".toList ∧
    blanks ≠ [] ∧ (∀ c ∈ blanks, isSpace c = true) ∧ isSpace blank = true

theorem toLower_of_isSpace {c : Char} (h : isSpace c = true) : c.toLower = c := by
  obtain rfl | rfl : c = ' ' ∨ c = '\t' := by simpa [isSpace] using h
  · rfl
  · rfl

/-- These are the words that every story heading begins with. -/
theorem isSome_words?_iff {title : Text} :
    (words? title).isSome = true ↔ ∃ blanks, Begins blanks title := by
  constructor
  · intro h
    obtain ⟨found, hfound⟩ := Option.isSome_iff_exists.mp h
    simp only [words?, Option.bind_eq_bind, Option.bind_eq_some_iff] at hfound
    obtain ⟨_, hstripUser, _, hskip, _, hstripStory, hskipLast⟩ := hfound
    obtain ⟨user, rfl, huser⟩ := stripPrefixNoCase?_eq_some_iff.mp hstripUser
    obtain ⟨blanks, rfl, hne, hblanks, -⟩ := skipSpaces1?_eq_some_iff.mp hskip
    obtain ⟨story, rfl, hstory⟩ := stripPrefixNoCase?_eq_some_iff.mp hstripStory
    obtain ⟨white, rfl, hwhite, hall, -⟩ := skipSpaces1?_eq_some_iff.mp hskipLast
    obtain ⟨blank, others, rfl⟩ := List.exists_cons_of_ne_nil hwhite
    exact ⟨blanks, user, story, blank, others ++ found, rfl, huser, hstory, hne, hblanks,
      hall blank List.mem_cons_self⟩
  · rintro ⟨blanks, user, story, blank, rest, rfl, huser, hstory, hne, hblanks, hblank⟩
    have hhead : ∀ c ∈ (story ++ blank :: rest).head?, isSpace c = false := by
      cases story with
      | nil => contradiction
      | cons first others =>
        intro c hc
        obtain rfl : first = c := by simpa using hc
        by_contra hspace
        rw [Bool.not_eq_false] at hspace
        rw [List.map_cons, toLower_of_isSpace hspace] at hstory
        obtain ⟨rfl, -⟩ := List.cons.inj hstory
        contradiction
    have hskip : skipSpaces1? (blanks ++ (story ++ blank :: rest)) =
        some (story ++ blank :: rest) :=
      skipSpaces1?_eq_some_iff.mpr ⟨blanks, rfl, hne, hblanks, hhead⟩
    have hstrip : stripPrefixNoCase? "story".toList (story ++ blank :: rest) =
        some (blank :: rest) :=
      stripPrefixNoCase?_eq_some_iff.mpr ⟨story, rfl, hstory⟩
    have hstart : stripPrefixNoCase? "user".toList
        (user ++ (blanks ++ (story ++ blank :: rest))) =
          some (blanks ++ (story ++ blank :: rest)) :=
      stripPrefixNoCase?_eq_some_iff.mpr ⟨user, rfl, huser⟩
    have hlast : (skipSpaces1? (blank :: rest)).isSome = true := by simp [skipSpaces1?, hblank]
    simpa only [words?, Option.bind_eq_bind, hstart, Option.bind_some, hskip, hstrip] using hlast

/-- A title that begins with the words announces a story if there is one space between them. -/
theorem announces_iff {blanks title : Text} (h : Begins blanks title) :
    announces title = true ↔ blanks = [' '] := by
  obtain ⟨user, story, blank, rest, rfl, huser, hstory, hne, hblanks, -⟩ := h
  obtain ⟨first, others, rfl⟩ := List.exists_cons_of_ne_nil hne
  rw [List.forall_mem_cons] at hblanks
  have huserLength : user.length = 4 := by simpa using congrArg List.length huser
  have hstoryLength : story.length = 5 := by simpa using congrArg List.length hstory
  have hwords : "user story".toList.map Char.toLower = "user".toList ++ " story".toList := by decide
  rw [announces, equalsNoCase, beq_iff_eq, List.take_append, huserLength,
    List.take_of_length_le (by omega), List.map_append, huser, hwords, List.append_cancel_left_eq,
    List.cons_append, List.take_succ_cons, List.map_cons, toLower_of_isSpace hblanks.1]
  constructor
  · intro hequal
    obtain ⟨rfl, hrest⟩ := List.cons.inj hequal
    cases others with
    | nil => rfl
    | cons second others =>
      rw [List.forall_mem_cons] at hblanks
      obtain ⟨hsecond, -⟩ := List.cons.inj hrest
      rw [toLower_of_isSpace hblanks.2.1] at hsecond
      rw [hsecond] at hblanks
      exact absurd hblanks.2.1 (by decide)
  · intro hone
    obtain ⟨rfl, rfl⟩ := List.cons.inj hone
    rw [List.nil_append, List.take_append_of_le_length (by omega),
      List.take_of_length_le (by omega), hstory]
    rfl

end StoryHeading

/-! ### Headings and findings -/

namespace Story

/-- The heading is not passed over: it has a story, or exactly one warning. -/
def Noticed (document : Text) (line : Line) : Prop :=
  (∃ story ∈ (ofDocument document).records, story.span = line.span) ∨
    (((ofDocument document).withCode .malformedStoryHeader).filter fun diagnostic =>
      diagnostic.labels.any fun label => label.span = line.span).length = 1

/-- What is found in front of the line is what is found without it and all that is behind. -/
def SetApart (document : Text) (line : Line) : Prop :=
  ∃ behind, ofDocument document =
      (ofDocument (takeBytes line.start document)).append behind ∧
    ∀ story ∈ behind.records, line.start ≤ story.span.start

theorem mem_scopesFrom {lines : List Line} {scope : Scope} (h : scope ∈ scopesFrom lines) :
    scope.line ∈ lines ∧ ∃ level, scope.line.role = .opensStory scope.header level := by
  induction lines with
  | nil => contradiction
  | cons line rest ih =>
    have hlater : scope ∈ scopesFrom rest →
        scope.line ∈ line :: rest ∧ ∃ level, scope.line.role = .opensStory scope.header level :=
      fun hmem => ⟨List.mem_cons_of_mem _ (ih hmem).1, (ih hmem).2⟩
    rw [scopesFrom] at h
    split at h
    · rename_i header level hrole
      obtain rfl | hmem := List.mem_cons.mp h
      · exact ⟨List.mem_cons_self, level, hrole⟩
      · exact hlater hmem
    · exact hlater h

theorem exists_scope_of_mem {lines : List Line} {line : Line} (h : line ∈ lines)
    {header : StoryHeading} {level : Nat} (hrole : line.role = .opensStory header level) :
    ∃ scope ∈ scopesFrom lines, scope.line = line := by
  induction lines with
  | nil => contradiction
  | cons first rest ih =>
    rw [scopesFrom]
    obtain rfl | hmem := List.mem_cons.mp h
    · rw [hrole]
      exact ⟨_, List.mem_cons_self, rfl⟩
    · obtain ⟨scope, hscope, hline⟩ := ih hmem
      split
      · exact ⟨scope, List.mem_cons_of_mem _ hscope, hline⟩
      · exact ⟨scope, hscope, hline⟩

theorem records_ofDocument (document : Text) :
    (ofDocument document).records = (scopesFrom (Line.scan document)).map Scope.story :=
  records_collect none none _

section Scan

variable {document : Text} {line : Line} (hline : line ∈ Line.scan document)

include hline in
theorem eq_of_span_eq {other : Line} (hother : other ∈ Line.scan document)
    (hspan : other.span = line.span) : other = line :=
  List.inj_on_of_nodup_map (Line.nodup_span_scan document) hother hline hspan

include hline in
theorem filter_span_eq :
    (Line.scan document).filter (fun other => other.span = line.span) = [line] := by
  have hsame : (Line.scan document).filter (fun other => other.span = line.span) =
      (Line.scan document).filter (· == line) := by
    apply List.filter_congr
    intro other hother
    rw [Bool.eq_iff_iff, decide_eq_true_eq, beq_iff_eq]
    constructor
    · exact eq_of_span_eq hline hother
    · rintro rfl
      rfl
  rw [hsame, List.filter_beq,
    List.count_eq_one_of_mem (Line.nodup_span_scan document).of_map hline, List.replicate_one]

include hline in
theorem exists_story_iff : (∃ story ∈ (ofDocument document).records, story.span = line.span) ↔
    ∃ header level, line.role = .opensStory header level := by
  rw [records_ofDocument]
  constructor
  · rintro ⟨story, hstory, hspan⟩
    obtain ⟨scope, hscope, rfl⟩ := List.mem_map.mp hstory
    obtain ⟨hmem, level, hrole⟩ := mem_scopesFrom hscope
    obtain rfl := eq_of_span_eq hline hmem hspan
    exact ⟨scope.header, level, hrole⟩
  · rintro ⟨header, level, hrole⟩
    obtain ⟨scope, hscope, rfl⟩ := exists_scope_of_mem hline hrole
    exact ⟨scope.story, List.mem_map_of_mem hscope, rfl⟩

include hline in
theorem length_warnings_eq_one_iff :
    (((ofDocument document).withCode .malformedStoryHeader).filter fun diagnostic =>
      diagnostic.labels.any fun label => label.span = line.span).length = 1 ↔
        line.role = .announcesStory := by
  have hlabels : ∀ other, ((malformedHeader other).labels.any fun label =>
      label.span = line.span) = decide (other.span = line.span) := by
    simp [malformedHeader]
  rw [ofDocument, withCode_malformedStoryHeader_collect, List.filter_map, List.length_map]
  simp only [Function.comp_def, hlabels]
  rw [List.filter_comm, filter_span_eq hline]
  by_cases hrole : line.role = .announcesStory <;> simp [hrole]

end Scan

/-- A heading that begins with the words of a story heading has a story or a warning, and keeps
what is behind it from the stories in front, exactly if it is a story heading or has a single
space between the words. -/
theorem noticed_and_setApart_iff {document : Text} {line : Line} {heading : Heading}
    {blanks : Text} (hline : line ∈ Line.scan document)
    (hheading : Heading.ofLine? line = some heading)
    (hbegins : StoryHeading.Begins blanks heading.title) :
    Noticed document line ∧ SetApart document line ↔
      (StoryHeading.parse? heading.title).isSome = true ∨ blanks = [' '] := by
  have hheads : HeadsStory line ↔
      (StoryHeading.parse? heading.title).isSome = true ∨ blanks = [' '] := by
    rw [← StoryHeading.announces_iff hbegins, StoryHeading.announces_iff_beginsUserStory]
    simp only [HeadsStory, Line.role, hheading]
    cases StoryHeading.parse? heading.title with
    | some header => simp
    | none => by_cases hwords : StoryHeading.BeginsUserStory heading.title <;> simp [hwords]
  rw [← hheads, Noticed, exists_story_iff hline, length_warnings_eq_one_iff hline]
  refine ⟨And.left, fun h => ⟨h, ?_⟩⟩
  obtain ⟨before, after, hscan⟩ := List.append_of_mem hline
  obtain ⟨last, hfound⟩ := collect_append_cons h none none before after
  refine ⟨collect none last (line :: after), ?_, ?_⟩
  · rw [ofDocument, hscan, hfound, ofDocument, Line.scan_takeBytes hscan]
  · rw [records_collect, Option.map_none, Option.toList_none, List.nil_append, List.forall_mem_map]
    intro scope hscope
    have hpairwise := Line.pairwise_start_scan document
    rw [hscan, List.pairwise_append] at hpairwise
    obtain hmem | hmem := List.mem_cons.mp (mem_scopesFrom hscope).1
    · exact Nat.le_of_eq (congrArg Line.start hmem.symm)
    · exact Nat.le_of_lt (List.rel_of_pairwise_cons hpairwise.2.1 hmem)

/-- With one space the heading ends the story in front of it, though it is no story heading. -/
theorem noticed_and_setApart_iff_one_space :
    let document := ("### User Story 1 - A (Priority: P1)\n#### User Story 2\n" ++
      "1. Given x, When y, Then z\n").toList
    let line : Line := ⟨"#### User Story 2".toList, 36, 54, false⟩
    line ∈ Line.scan document ∧ Heading.ofLine? line = some ⟨4, "User Story 2".toList⟩ ∧
      StoryHeading.Begins [' '] "User Story 2".toList ∧
      Noticed document line ∧ SetApart document line := by
  intro document line
  have hline : line ∈ Line.scan document := by decide +kernel
  have hheading : Heading.ofLine? line = some ⟨4, "User Story 2".toList⟩ := by decide
  have hbegins : StoryHeading.Begins [' '] "User Story 2".toList :=
    ⟨"User".toList, "Story".toList, ' ', ['2'], by decide, by decide, by decide, by decide,
      by decide, by decide⟩
  exact ⟨hline, hheading, hbegins,
    (noticed_and_setApart_iff hline hheading hbegins).mpr (.inr rfl)⟩

/-- With two spaces it is passed over without a warning, and the scenario below goes to the story
in front. -/
theorem not_noticed_two_spaces :
    let document := ("### User Story 1 - A (Priority: P1)\n#### User  Story 2\n" ++
      "1. Given x, When y, Then z\n").toList
    let line : Line := ⟨"#### User  Story 2".toList, 36, 55, false⟩
    line ∈ Line.scan document ∧ Heading.ofLine? line = some ⟨4, "User  Story 2".toList⟩ ∧
      StoryHeading.Begins [' ', ' '] "User  Story 2".toList ∧
      ofDocument document = ⟨[⟨1, "A", .p1, [⟨"x", "y", "z"⟩], ⟨0, 35⟩⟩], []⟩ ∧
      ¬ Noticed document line := by
  intro document line
  have hrecords : (ofDocument document).records =
      [⟨1, "A", .p1, [⟨"x", "y", "z"⟩], ⟨0, 35⟩⟩] := by decide +kernel
  have hdiagnostics : (ofDocument document).diagnostics = [] := by decide +kernel
  have hfound : ofDocument document = ⟨[⟨1, "A", .p1, [⟨"x", "y", "z"⟩], ⟨0, 35⟩⟩], []⟩ := by
    rw [← hrecords, ← hdiagnostics]
  refine ⟨by decide +kernel, by decide, ⟨"User".toList, "Story".toList, ' ', ['2'], by decide,
    by decide, by decide, by decide, by decide, by decide⟩, hfound, ?_⟩
  rintro (⟨story, hstory, hspan⟩ | hwarning)
  · rw [hrecords, List.mem_singleton] at hstory
    rw [hstory] at hspan
    exact absurd hspan (by decide)
  · rw [Findings.withCode, hdiagnostics] at hwarning
    contradiction

end Story

end DiagramSync
