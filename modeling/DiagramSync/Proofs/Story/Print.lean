import DiagramSync.Proofs.Story.Scope
import DiagramSync.Proofs.Text.Search

/-!
Stories in print: a heading of level three, an empty line, and a numbered line for each scenario.
Reading gives back what was printed, with anything behind the headings that does not look like a
priority tag.
-/

namespace DiagramSync

open Text

/-! ### Printing -/

namespace Scenario

/-- A clause that is read as it is written: nothing in it is a mark of emphasis, and nothing goes
from its ends. -/
structure PlainClause (clause : Text) : Prop where
  ne_nil : clause ≠ []
  trim_eq : trim clause = clause
  feed_not_mem : '\n' ∉ clause
  no_stars : contains "**".toList clause = false
  no_underscores : contains "__".toList clause = false
  no_comma : endsWith [','] clause = false

/-- Each clause is read as it is written and does not hold the words that end it. -/
structure Printable (scenario : Scenario) : Prop where
  precondition : PlainClause scenario.precondition.toList
  trigger : PlainClause scenario.trigger.toList
  outcome : PlainClause scenario.outcome.toList
  no_when : contains " When ".toList scenario.precondition.toList = false
  no_then : contains " Then ".toList scenario.trigger.toList = false

def print (ordinal : Nat) (scenario : Scenario) : Text :=
  (toString ordinal).toList ++ ". **Given** ".toList ++ scenario.precondition.toList ++
    ", **When** ".toList ++ scenario.trigger.toList ++ ", **Then** ".toList ++
    scenario.outcome.toList

end Scenario

namespace Story

structure Printable (story : Story) : Prop where
  number_lt : story.number < StoryHeading.numberBound
  title_ne : story.title ≠ ""
  title_trim : trim story.title.toList = story.title.toList
  title_feed : '\n' ∉ story.title.toList
  scenarios : ∀ scenario ∈ story.scenarios, scenario.Printable

/-- Text that may stand behind a story heading: it has no place where a priority tag may begin. -/
def IsTrailer (text : Text) : Prop :=
  '\n' ∉ text ∧ contains "(priority".toList (text.map Char.toLower) = false

def priorityTag (priority : Priority) : Text :=
  "(Priority: ".toList ++ priority.text.toList ++ ")".toList

/-- The title of a story's heading. -/
def heading (story : Story) : Text :=
  "User Story ".toList ++ (toString story.number).toList ++ " - ".toList ++ story.title.toList ++
    " ".toList ++ priorityTag story.priority

def printedLines (story : Story) (trailer : Text) : List Text :=
  ("### ".toList ++ (story.heading ++ trailer)) :: [] ::
    (story.scenarios.zipIdx 1).map fun (scenario, ordinal) => scenario.print ordinal

/-- Stories in print, each with the text behind its heading. -/
def print (entries : List (Story × Text)) : Text :=
  (entries.flatMap fun entry => entry.1.printedLines entry.2).flatMap fun line => line ++ ['\n']

end Story

/-! ### Headings -/

namespace Heading

variable {title : Text}

theorem dropClosing_append (htitle : title ≠ [])
    (hlast : ∀ c ∈ title.getLast?, isWhite c = false ∧ c ≠ '#') (trailer : Text) :
    ∃ rest, rest <+: trailer ∧ dropClosing (title ++ trailer) = title ++ rest := by
  have hbare : trimEndWhere (· == '#') (title ++ trailer) =
      title ++ trimEndWhere (· == '#') trailer :=
    trimEndWhere_append (fun c hc => by simpa using (hlast c hc).2) trailer
  rw [dropClosing, hbare]
  split
  · exact ⟨trailer, List.prefix_rfl, rfl⟩
  · split
    · rename_i hnone
      rw [List.getLast?_eq_none_iff, List.append_eq_nil_iff] at hnone
      exact absurd hnone.1 htitle
    · split
      · refine ⟨trimEnd (trimEndWhere (· == '#') trailer), ?_, ?_⟩
        · exact (trimEndWhere_begins _ _).trans (trimEndWhere_begins _ _)
        · exact trimEndWhere_append (fun c hc => (hlast c hc).1) _
      · exact ⟨trailer, List.prefix_rfl, rfl⟩

theorem ofText?_append (htitle : title ≠ []) (hfirst : ∀ c ∈ title.head?, isWhite c = false)
    (hlast : ∀ c ∈ title.getLast?, isWhite c = false ∧ c ≠ '#') (trailer : Text) :
    ∃ rest, rest <+: trailer ∧
      ofText? ("### ".toList ++ (title ++ trailer)) = some ⟨3, title ++ rest⟩ := by
  have hread : ofText? ("### ".toList ++ (title ++ trailer)) =
      some ⟨3, dropClosing (trim (title ++ trailer))⟩ := rfl
  have hhead : ∀ c ∈ (title ++ trailer).head?, isWhite c = false := by
    rwa [List.head?_append_of_ne_nil _ htitle]
  have hstart : trimStart (title ++ trailer) = title ++ trailer :=
    trimStart_append (List.forall_mem_nil _) hhead
  have htrim : trim (title ++ trailer) = title ++ trimEnd trailer := by
    rw [trim, hstart, trimEnd]
    exact trimEndWhere_append (fun c hc => (hlast c hc).1) trailer
  obtain ⟨rest, hrest, hclosing⟩ := dropClosing_append htitle hlast (trimEnd trailer)
  refine ⟨rest, hrest.trans (trimEndWhere_begins isWhite trailer), ?_⟩
  rw [hread, htrim, hclosing]

end Heading

theorem Text.dropReturn_append {text : Text} (hlast : ∀ c ∈ text.getLast?, c ≠ '\r')
    (trailer : Text) : ∃ rest, rest <+: trailer ∧ dropReturn (text ++ trailer) = text ++ rest := by
  obtain hreturn | ⟨hkept, -⟩ := dropReturn_cases (text ++ trailer)
  · obtain ⟨rest, hline, htrailer⟩ | ⟨rest, htext, hcons⟩ := List.append_eq_append_iff.mp hreturn
    · exact ⟨rest, ⟨['\r'], htrailer.symm⟩, hline⟩
    · cases rest with
      | nil => exact ⟨[], List.nil_prefix, by simpa using htext.symm⟩
      | cons c rest =>
        obtain ⟨rfl, hrest⟩ := List.cons.inj hcons
        obtain ⟨rfl, -⟩ := List.append_eq_nil_iff.mp hrest.symm
        exact absurd rfl (hlast '\r' (by rw [htext]; simp))
  · exact ⟨trailer, List.prefix_rfl, hkept⟩

/-! ### Numbers -/

namespace Text

theorem toString_toList_ne_nil (number : Nat) : (toString number).toList ≠ [] := by
  rw [Nat.toString_eq_ofList_toDigits, String.toList_ofList]
  exact Nat.toDigits_ne_nil

theorem isWhite_of_isDigit {c : Char} (h : c.isDigit = true) : isWhite c = false :=
  Label.isWhite_of_isIdChar
    (Label.isIdChar_of_isAsciiAlphanum (by simp [isAsciiAlphanum, Char.isAlphanum, h]))

theorem skipSpaces_toString_append (number : Nat) (rest : Text) :
    skipSpaces ((toString number).toList ++ rest) = (toString number).toList ++ rest := by
  refine skipSpaces_of_head? fun c hc => ?_
  rw [List.head?_append_of_ne_nil _ (toString_toList_ne_nil number)] at hc
  exact isSpace_eq_false (isWhite_of_isDigit (Label.isDigit_of_mem_toString
    (List.mem_of_mem_head? hc)))

theorem span1?_toString_append (number : Nat) {rest : Text}
    (hrest : ∀ c ∈ rest.head?, c.isDigit = false) :
    span1? Char.isDigit ((toString number).toList ++ rest) =
      some ((toString number).toList, rest) :=
  span1?_append (toString_toList_ne_nil number) (fun _ => Label.isDigit_of_mem_toString) hrest

end Text

/-! ### Story headings -/

namespace StoryHeading

theorem number?_append {number : Nat} (hnumber : number < numberBound) {rest : Text}
    (hrest : ∀ c ∈ rest.head?, c.isDigit = false) :
    number? ((toString number).toList ++ rest) = some (number, rest) := by
  have hdigits : (toString number).toList = Nat.toDigits 10 number := by
    rw [Nat.toString_eq_ofList_toDigits, String.toList_ofList]
  have hvalue : Nat.ofDigitChars 10 (toString number).toList 0 = number := by
    rw [hdigits, Nat.ofDigitChars_ten_toDigits]
  rw [number?, span1?_toString_append number hrest]
  dsimp only [Option.bind_eq_bind, Option.bind_some]
  rw [hvalue, if_pos hnumber]
  rfl

theorem opening?_append {number : Nat} (hnumber : number < numberBound) {rest : Text}
    (hrest : ∀ c ∈ rest.head?, isSpace c = false) :
    opening? ("User Story ".toList ++ ((toString number).toList ++ (" - ".toList ++ rest))) =
      some (number, rest) := by
  have hspace : ∀ c ∈ (" - ".toList ++ rest).head?, c.isDigit = false := by
    intro c hc
    obtain rfl : ' ' = c := Option.some.inj hc
    rfl
  have hwords : ∀ text, words? ("User Story ".toList ++ text) = some (skipSpaces text) :=
    fun _ => rfl
  have hseparator : separator? (skipSpaces (" - ".toList ++ rest)) = some (' ' :: rest) := rfl
  have hskip : skipSpaces (' ' :: rest) = skipSpaces rest := rfl
  rw [opening?, hwords, skipSpaces_toString_append]
  simp only [Option.bind_eq_bind, Option.bind_some, number?_append hnumber hspace, hseparator,
    hskip, skipSpaces_of_head? hrest]
  rfl

theorem opensTag_eq_false_iff {text : Text} :
    opensTag text = false ↔ ¬ "(priority".toList <+: text.map Char.toLower := by
  rw [opensTag, Option.isSome_eq_false_iff, Option.isNone_iff_eq_none,
    Option.eq_none_iff_forall_not_mem]
  constructor
  · rintro hnone ⟨rest, hrest⟩
    obtain ⟨front, back, rfl, hfront, -⟩ := List.map_eq_append_iff.mp hrest.symm
    exact hnone back (stripPrefixNoCase?_eq_some_iff.mpr ⟨front, rfl, hfront.trans rfl⟩)
  · rintro hbegins rest hrest
    rw [Option.mem_def, stripPrefixNoCase?_eq_some_iff] at hrest
    obtain ⟨front, rfl, hfront⟩ := hrest
    rw [List.map_append, hfront] at hbegins
    exact hbegins (List.prefix_append _ _)

/-- No priority tag begins inside of text that holds no parenthesis. -/
theorem opensTag_of_suffix {front rest part : Text} (hfront : '(' ∉ front)
    (hrest : ∀ part, part <:+ rest → opensTag part = false) (h : part <:+ front ++ rest) :
    opensTag part = false := by
  induction front with
  | nil => exact hrest part h
  | cons c front ih =>
    obtain ⟨hc, hfront⟩ : '(' ≠ c ∧ '(' ∉ front := by simpa using hfront
    rw [List.cons_append, List.suffix_cons_iff] at h
    obtain rfl | h := h
    · rw [opensTag_eq_false_iff]
      rintro ⟨rest, hrest⟩
      exact hc (eq_of_toLower_eq rfl (List.cons.inj hrest).1.symm).symm
    · exact ih hfront h

theorem opensTag_of_trailer {trailer rest part : Text} (htrailer : Story.IsTrailer trailer)
    (hrest : rest <+: trailer) (h : part <:+ rest) : opensTag part = false := by
  have hwithin : ¬ "(priority".toList <:+: trailer.map Char.toLower :=
    contains_eq_false_iff.mp htrailer.2
  rw [opensTag_eq_false_iff]
  intro hbegins
  exact hwithin (hbegins.isInfix.trans ((h.isInfix.trans hrest.isInfix).map Char.toLower))

theorem tag?_append (priority : Priority) (rest : Text) :
    tag? (Story.priorityTag priority ++ rest) = some priority := by
  cases priority <;> rfl

theorem splitAtLast?_priorityTag (title : Text) (priority : Priority) {rest : Text}
    (hrest : ∀ part, part <:+ rest → opensTag part = false) :
    splitAtLast? opensTag (title ++ (Story.priorityTag priority ++ rest)) =
      some (title, Story.priorityTag priority ++ rest) := by
  obtain ⟨tag, htag, hfree⟩ : ∃ tag, Story.priorityTag priority = '(' :: tag ∧ '(' ∉ tag := by
    cases priority <;> exact ⟨_, rfl, by decide⟩
  have hbegins : opensTag ('(' :: (tag ++ rest)) = true := by
    rw [← List.cons_append, ← htag]
    cases priority <;> rfl
  rw [htag]
  exact splitAtLast?_append_cons hbegins (fun part => opensTag_of_suffix hfree hrest) title

/-- The title of a printed heading is read back, whatever it holds: its own priority tag is the
last one. -/
theorem parse?_heading {story : Story} (h : story.Printable) {rest : Text}
    (hrest : ∀ part, part <:+ rest → opensTag part = false) :
    parse? (story.heading ++ rest) = some ⟨story.number, story.title, story.priority⟩ := by
  have htitle : story.title.toList ≠ [] := by simpa using h.title_ne
  have htrimmed : Trimmed story.title.toList := trimmed_of_trim_eq h.title_trim
  have hopening : opening? (story.heading ++ rest) = some (story.number,
      story.title.toList ++ (" ".toList ++ (Story.priorityTag story.priority ++ rest))) := by
    unfold Story.heading
    simp only [List.append_assoc]
    refine opening?_append h.number_lt fun c hc => isSpace_eq_false (htrimmed.1 c ?_)
    rwa [List.head?_append_of_ne_nil _ htitle] at hc
  have hsplit : splitAtLast? opensTag (story.title.toList ++ (" ".toList ++
      (Story.priorityTag story.priority ++ rest))) =
        some (story.title.toList ++ " ".toList, Story.priorityTag story.priority ++ rest) := by
    rw [← List.append_assoc]
    exact splitAtLast?_priorityTag _ _ hrest
  have htrim : trim (story.title.toList ++ " ".toList) = story.title.toList :=
    htrimmed.trim_append (List.forall_mem_nil _) (by decide) htitle
  rw [parse?, hopening]
  simp only [Option.bind_eq_bind, Option.bind_some, hsplit, htrim,
    List.isEmpty_eq_false_iff.mpr htitle, tag?_append, String.ofList_toList]
  rfl

end StoryHeading

/-! ### Scenario lines -/

namespace Scenario.PlainClause

variable {clause : Text}

theorem trimmed (h : PlainClause clause) : Trimmed clause :=
  trimmed_of_trim_eq h.trim_eq

theorem getLast?_ne (h : PlainClause clause) : ∀ c ∈ clause.getLast?, (c == ',') = false := by
  intro c hc
  rw [beq_eq_false_iff_ne]
  rintro rfl
  obtain ⟨front, hfront⟩ := List.getLast?_eq_some_iff.mp hc
  have hends : endsWith [','] clause = true := endsWith_iff.mpr ⟨front, hfront⟩
  rw [h.no_comma] at hends
  contradiction

end Scenario.PlainClause

namespace ScenarioItem

open Scenario

variable {clause : Text} {scenario : Scenario}

/-- A printed scenario without its number and its marks of emphasis. -/
def plainBody (scenario : Scenario) : Text :=
  "Given ".toList ++ (scenario.precondition.toList ++ ',' :: (" When ".toList ++
    (scenario.trigger.toList ++ ',' :: (" Then ".toList ++ scenario.outcome.toList))))

/-! #### Emphasis -/

theorem replaceAll_clause {pattern : Text} (hpattern : pattern ≠ []) (hcomma : ',' ∉ pattern)
    (hclause : contains pattern clause = false) (rest : Text) :
    replaceAll pattern [] (clause ++ ',' :: rest) =
      clause ++ ',' :: replaceAll pattern [] rest := by
  rw [replaceAll_append_cons hpattern hcomma,
    replaceAll_of_not_within (contains_eq_false_iff.mp hclause)]

theorem dropStars_print (h : scenario.Printable) (ordinal : Nat) :
    replaceAll "**".toList [] (scenario.print ordinal) =
      (toString ordinal).toList ++ '.' :: ' ' :: plainBody scenario := by
  have hordinal : '*' ∉ (toString ordinal).toList :=
    fun hmem => absurd (Label.isDigit_of_mem_toString hmem) (by decide)
  have hgiven : ∀ rest, replaceAll "**".toList [] (". **Given** ".toList ++ rest) =
      ". Given ".toList ++ replaceAll "**".toList [] rest := fun rest => by simp [replaceAll]
  have hwhen : ∀ rest, replaceAll "**".toList [] (" **When** ".toList ++ rest) =
      " When ".toList ++ replaceAll "**".toList [] rest := fun rest => by simp [replaceAll]
  have hthen : ∀ rest, replaceAll "**".toList [] (" **Then** ".toList ++ rest) =
      " Then ".toList ++ replaceAll "**".toList [] rest := fun rest => by simp [replaceAll]
  have hprint : scenario.print ordinal = (toString ordinal).toList ++ (". **Given** ".toList ++
      (scenario.precondition.toList ++ ',' :: (" **When** ".toList ++ (scenario.trigger.toList ++
        ',' :: (" **Then** ".toList ++ scenario.outcome.toList))))) := by
    unfold Scenario.print
    simp only [List.append_assoc]
    rfl
  have hword : ∀ rest, replaceAll "**".toList [] ((toString ordinal).toList ++ rest) =
      (toString ordinal).toList ++ replaceAll "**".toList [] rest :=
    fun rest => replaceAll_append hordinal rest
  rw [hprint, hword, hgiven, replaceAll_clause (by decide) (by decide)
    h.precondition.no_stars, hwhen, replaceAll_clause (by decide) (by decide) h.trigger.no_stars,
    hthen, replaceAll_of_not_within (contains_eq_false_iff.mp h.outcome.no_stars)]
  rfl

theorem dropStrong_print (h : scenario.Printable) (ordinal : Nat) :
    dropStrong (scenario.print ordinal) =
      (toString ordinal).toList ++ '.' :: ' ' :: plainBody scenario := by
  have hordinal : '_' ∉ (toString ordinal).toList :=
    fun hmem => absurd (Label.isDigit_of_mem_toString hmem) (by decide)
  have hword : ∀ {word : Text}, '_' ∉ word → ∀ rest, replaceAll "__".toList [] (word ++ rest) =
      word ++ replaceAll "__".toList [] rest := fun hword => replaceAll_append hword
  have hgiven : ". ".toList ++ plainBody scenario = ". Given ".toList ++ _ := rfl
  rw [dropStrong, dropStars_print h, hword hordinal]
  refine congrArg ((toString ordinal).toList ++ ·) ?_
  rw [show '.' :: ' ' :: plainBody scenario = ". Given ".toList ++ _ from rfl, hword (by decide),
    replaceAll_clause (by decide) (by decide) h.precondition.no_underscores, hword (by decide),
    replaceAll_clause (by decide) (by decide) h.trigger.no_underscores, hword (by decide),
    replaceAll_of_not_within (contains_eq_false_iff.mp h.outcome.no_underscores)]

/-! #### Clauses -/

theorem bareClause_comma (h : PlainClause clause) : bareClause (clause ++ [',']) = clause := by
  have htrimmed : Trimmed (clause ++ [',']) := by
    constructor
    · rw [List.head?_append_of_ne_nil _ h.ne_nil]
      exact h.trimmed.1
    · rw [List.getLast?_append_of_ne_nil _ (by simp)]
      decide
  have htrim : trim (clause ++ [',']) = clause ++ [','] := by
    have htrim := htrimmed.trim_append (List.forall_mem_nil _) (List.forall_mem_nil _) (by simp)
    rwa [List.append_nil] at htrim
  have hcomma : trimEndWhere (· == ',') [','] = [] := rfl
  rw [bareClause, htrim, trimEndWhere_append h.getLast?_ne, hcomma, List.append_nil, h.trim_eq]

theorem bareClause_of_plain (h : PlainClause clause) : bareClause clause = clause := by
  have hcomma : trimEndWhere (· == ',') clause = clause := by
    have happend := trimEndWhere_append h.getLast?_ne []
    rwa [List.append_nil, show trimEndWhere (· == ',') [] = [] from rfl, List.append_nil] at happend
  rw [bareClause, h.trim_eq, hcomma, h.trim_eq]

theorem upTo?_append {word : Text} (hword : word ≠ []) (hcomma : ',' ∉ word)
    (hclause : contains word clause = false) (rest : Text) :
    upTo? word (clause ++ ',' :: (word ++ rest)) = some (clause ++ [','], rest) := by
  rw [upTo?, splitOnce?_append_cons hword hcomma (contains_eq_false_iff.mp hclause)]
  split
  · rename_i hempty
    simp at hempty
  · rfl

theorem clauses?_print (h : scenario.Printable) :
    clauses? (plainBody scenario) =
      some (scenario.precondition.toList ++ [','], scenario.trigger.toList ++ [','],
        scenario.outcome.toList) := by
  have hgiven : ∀ text, Text.stripPrefix? "Given".toList ("Given ".toList ++ text) =
      some (' ' :: text) := fun _ => rfl
  have hskip : ∀ text, Text.skipSpaces1? (' ' :: text) = some (skipSpaces text) := fun _ => rfl
  have hhead : ∀ rest, ∀ c ∈ (scenario.precondition.toList ++ rest).head?, isSpace c = false := by
    intro rest c hc
    rw [List.head?_append_of_ne_nil _ h.precondition.ne_nil] at hc
    exact isSpace_eq_false (h.precondition.trimmed.1 c hc)
  have hwhen := upTo?_append (by decide : " When ".toList ≠ []) (by decide) h.no_when
  have hthen := upTo?_append (by decide : " Then ".toList ≠ []) (by decide) h.no_then
  rw [clauses?, plainBody]
  simp only [Option.bind_eq_bind, hgiven, hskip, Option.bind_some, skipSpaces_of_head? (hhead _),
    hwhen, hthen]
  rfl

/-! #### Items -/

theorem itemBody?_append (ordinal : Nat) {body : Text}
    (hbody : ∀ c ∈ body.head?, isSpace c = false) :
    itemBody? ((toString ordinal).toList ++ '.' :: ' ' :: body) = some body := by
  have hpoint : ∀ c ∈ ('.' :: ' ' :: body).head?, c.isDigit = false := by
    intro c hc
    obtain rfl : '.' = c := Option.some.inj hc
    rfl
  rw [itemBody?, skipSpaces_toString_append, span1?_toString_append ordinal hpoint]
  exact congrArg some (skipSpaces_of_head? hbody)

theorem trimEnd_plainBody (h : scenario.Printable) :
    trimEnd (plainBody scenario) = plainBody scenario := by
  have hlast : ∀ c ∈ (plainBody scenario).getLast?, isWhite c = false := by
    have hsplit : plainBody scenario = "Given ".toList ++ scenario.precondition.toList ++
        ", When ".toList ++ scenario.trigger.toList ++ ", Then ".toList ++
          scenario.outcome.toList := by
      simp [plainBody]
    rw [hsplit, List.getLast?_append_of_ne_nil _ h.outcome.ne_nil]
    exact h.outcome.trimmed.2
  have htrim := trimEnd_append hlast (List.forall_mem_nil _)
  rwa [List.append_nil] at htrim

theorem read_print (h : scenario.Printable) (ordinal : Nat) :
    read (scenario.print ordinal) = .scenario scenario := by
  have hhead : ∀ c ∈ (plainBody scenario).head?, isSpace c = false := by
    intro c hc
    obtain rfl : 'G' = c := Option.some.inj hc
    rfl
  rw [read, dropStrong_print h, itemBody?_append ordinal hhead]
  dsimp only
  rw [ofBody, trimEnd_plainBody h, clauses?_print h]
  dsimp only
  rw [bareClause_comma h.precondition, bareClause_comma h.trigger, bareClause_of_plain h.outcome]
  simp [List.isEmpty_eq_false_iff.mpr h.precondition.ne_nil,
    List.isEmpty_eq_false_iff.mpr h.trigger.ne_nil, List.isEmpty_eq_false_iff.mpr h.outcome.ne_nil,
    Scenario.ofClauses, h.precondition.trim_eq, h.trigger.trim_eq, h.outcome.trim_eq]

end ScenarioItem

/-! ### Lines -/

namespace Story

variable {story : Story} {trailer : Text}

theorem head?_heading (story : Story) : story.heading.head? = some 'U' := by
  unfold Story.heading
  simp only [List.append_assoc]
  rfl

theorem getLast?_heading (story : Story) : story.heading.getLast? = some ')' := by
  unfold Story.heading priorityTag
  rw [← List.append_assoc]
  exact List.getLast?_append_of_ne_nil _ (by decide)

theorem role_of_heading {line : Line} (h : story.Printable) (htrailer : IsTrailer trailer)
    (hline : line.unplaced =
      ⟨dropReturn ("### ".toList ++ (story.heading ++ trailer)), 0, 0, false⟩) :
    line.role = .opensStory ⟨story.number, story.title, story.priority⟩ 3 := by
  obtain ⟨htext, -, -, hfenced⟩ := Line.mk.inj hline
  have hne : story.heading ≠ [] := by
    intro hnil
    simpa [hnil] using story.head?_heading
  have hfirst : ∀ c ∈ story.heading.head?, isWhite c = false := by
    rw [story.head?_heading]
    decide
  have hlast : ∀ c ∈ story.heading.getLast?, isWhite c = false ∧ c ≠ '#' := by
    rw [story.getLast?_heading]
    decide
  have hreturn : ∀ c ∈ ("### ".toList ++ story.heading).getLast?, c ≠ '\r' := by
    rw [List.getLast?_append_of_ne_nil _ hne, story.getLast?_heading]
    decide
  obtain ⟨line', hline', hdrop⟩ := dropReturn_append hreturn trailer
  obtain ⟨rest, hrest, hheading⟩ := Heading.ofText?_append hne hfirst hlast line'
  have hparse := StoryHeading.parse?_heading h fun part =>
    StoryHeading.opensTag_of_trailer htrailer (hrest.trans hline')
  rw [← List.append_assoc, hdrop, List.append_assoc] at htext
  simp only [Line.role, Heading.ofLine?, hfenced, Bool.false_eq_true, if_false, htext, hheading,
    hparse]

theorem role_of_head? {line : Line} (hfenced : line.fenced = false)
    (hhead : ∀ c ∈ line.text.head?, c ≠ ' ' ∧ c ≠ '#') : line.role = .prose := by
  have hheading : Heading.ofLine? line = none := by
    simp [Heading.ofLine?, hfenced, Line.heading?_of_head? hhead]
  simp [Line.role, hheading, hfenced]

/-! ### Scopes -/

section Scopes

variable {level : Nat} {body rest : List Line} (hbody : ∀ line ∈ body, line.role = .prose)
include hbody

theorem below_append (hrest : ∀ line ∈ rest.head?, line.role.endsStory level = true) :
    below level (body ++ rest) = body := by
  induction body with
  | nil =>
    cases rest with
    | nil => rfl
    | cons next rest => rw [List.nil_append, below_cons, if_pos (hrest next rfl)]
  | cons line body ih =>
    rw [List.forall_mem_cons] at hbody
    rw [List.cons_append, below_cons, hbody.1, ih hbody.2]
    rfl

theorem scopesFrom_append : scopesFrom (body ++ rest) = scopesFrom rest := by
  induction body with
  | nil => rfl
  | cons line body ih =>
    rw [List.forall_mem_cons] at hbody
    rw [List.cons_append, scopesFrom, hbody.1]
    exact ih hbody.2

/-- A story heading takes the prose below it, up to the next heading that ends its story. -/
theorem scopesFrom_cons_append {head : Line} {header : StoryHeading}
    (hhead : head.role = .opensStory header level)
    (hrest : ∀ line ∈ rest.head?, line.role.endsStory level = true) :
    scopesFrom (head :: (body ++ rest)) = ⟨head, header, body⟩ :: scopesFrom rest := by
  rw [scopesFrom, hhead]
  dsimp only
  rw [below_append hbody hrest, scopesFrom_append hbody]

end Scopes

/-! ### Stories -/

theorem dropReturn_print {scenario : Scenario} (h : scenario.Printable) (ordinal : Nat) :
    dropReturn (scenario.print ordinal) = scenario.print ordinal := by
  have hlast : ∀ c ∈ (scenario.print ordinal).getLast?, c ≠ '\r' := by
    unfold Scenario.print
    rw [List.getLast?_append_of_ne_nil _ h.outcome.ne_nil]
    intro c hc hreturn
    have hwhite := h.outcome.trimmed.2 c hc
    rw [hreturn] at hwhite
    exact absurd hwhite (by decide)
  obtain ⟨rest, hrest, hdrop⟩ := dropReturn_append hlast []
  rwa [List.prefix_nil.mp hrest, List.append_nil] at hdrop

theorem isDigit_of_head?_print (scenario : Scenario) (ordinal : Nat) :
    ∀ c ∈ (scenario.print ordinal).head?, c.isDigit = true := by
  unfold Scenario.print
  simp only [List.append_assoc]
  rw [List.head?_append_of_ne_nil _ (toString_toList_ne_nil ordinal)]
  exact fun c hc => Label.isDigit_of_mem_toString (List.mem_of_mem_head? hc)

theorem role_of_print {line : Line} {scenario : Scenario} {ordinal : Nat}
    (htext : line.text = scenario.print ordinal) (hfenced : line.fenced = false) :
    line.role = .prose := by
  refine role_of_head? hfenced fun c hc => ?_
  rw [htext] at hc
  have hdigit := isDigit_of_head?_print scenario ordinal c hc
  exact ⟨ne_of_keep hdigit rfl, ne_of_keep hdigit rfl⟩

/-- The lines of scenarios in print are prose, and each scenario is read back. -/
theorem readings_of_print {scenarios : List Scenario}
    (h : ∀ scenario ∈ scenarios, scenario.Printable) {ordinal : Nat} {items : List Line}
    (hitems : items.map Line.unplaced = (scenarios.zipIdx ordinal).map fun (scenario, ordinal) =>
      ⟨dropReturn (scenario.print ordinal), 0, 0, false⟩) :
    (∀ line ∈ items, line.role = .prose) ∧
      items.map (fun line => ScenarioItem.read line.text) = scenarios.map .scenario := by
  induction scenarios generalizing ordinal items with
  | nil =>
    obtain rfl : items = [] := by simpa using hitems
    simp
  | cons scenario scenarios ih =>
    rw [List.forall_mem_cons] at h
    rw [List.zipIdx_cons, List.map_cons] at hitems
    obtain ⟨line, items, rfl, hline, hitems⟩ := List.map_eq_cons_iff.mp hitems
    obtain ⟨htext, -, -, hfenced⟩ := Line.mk.inj hline
    rw [dropReturn_print h.1] at htext
    obtain ⟨hprose, hread⟩ := ih h.2 hitems
    refine ⟨?_, ?_⟩
    · exact List.forall_mem_cons.mpr ⟨role_of_print htext hfenced, hprose⟩
    · rw [List.map_cons, hread, htext, ScenarioItem.read_print h.1, List.map_cons]

/-- The lines of a story in print are a heading and prose, and each scenario is read back. -/
theorem exists_lines_of_printedLines {lines : List Line} (h : story.Printable)
    (htrailer : IsTrailer trailer)
    (hlines : lines.map Line.unplaced =
      (story.printedLines trailer).map fun text => ⟨dropReturn text, 0, 0, false⟩) :
    ∃ head body, lines = head :: body ∧
      head.role = .opensStory ⟨story.number, story.title, story.priority⟩ 3 ∧
      (∀ line ∈ body, line.role = .prose) ∧
      body.map (fun line => ScenarioItem.read line.text) =
        .unrelated :: story.scenarios.map .scenario := by
  rw [printedLines, List.map_cons, List.map_cons, List.map_map] at hlines
  obtain ⟨head, body, rfl, hhead, hbody⟩ := List.map_eq_cons_iff.mp hlines
  obtain ⟨blank, items, rfl, hblank, hitems⟩ := List.map_eq_cons_iff.mp hbody
  obtain ⟨htext, -, -, hfenced⟩ := Line.mk.inj hblank
  replace htext : blank.text = [] := htext
  obtain ⟨hprose, hread⟩ := readings_of_print h.scenarios hitems
  refine ⟨head, blank :: items, rfl, role_of_heading h htrailer hhead, ?_, ?_⟩
  · exact List.forall_mem_cons.mpr ⟨role_of_head? hfenced (by simp [htext]), hprose⟩
  · rw [List.map_cons, hread, ScenarioItem.read_of_inert (.inl htext)]

/-- Lines below a heading that are read as scenarios make up a story without warnings. -/
theorem Scope.of_readings (scope : Scope) {scenarios : List Scenario}
    (h : scope.body.map (fun line => ScenarioItem.read line.text) =
      .unrelated :: scenarios.map .scenario) :
    scope.story.scenarios = scenarios ∧ scope.malformedScenarios = [] := by
  constructor
  · have hreadings : scope.story.scenarios =
        (scope.body.map fun line => ScenarioItem.read line.text).filterMap
          ScenarioItem.scenario? := by
      rw [List.filterMap_map]
      rfl
    rw [hreadings, h, List.filterMap_cons_none rfl, List.filterMap_map]
    exact List.filterMap_some
  · have hwell : ∀ line ∈ scope.body, ¬ ScenarioItem.read line.text = .malformed := by
      intro line hline hmalformed
      have hmem := List.mem_map_of_mem (f := fun line => ScenarioItem.read line.text) hline
      rw [h, hmalformed] at hmem
      simp at hmem
    simpa [Scope.malformedScenarios] using hwell

/-- Each story in print opens one scope, which takes its own lines and no others. -/
theorem scopesFrom_print {entries : List (Story × Text)}
    (h : ∀ entry ∈ entries, entry.1.Printable ∧ IsTrailer entry.2) {lines : List Line}
    (hlines : lines.map Line.unplaced = (entries.flatMap fun entry =>
      entry.1.printedLines entry.2).map fun text => ⟨dropReturn text, 0, 0, false⟩) :
    (scopesFrom lines).map (fun scope => scope.story.unplaced) =
        entries.map (fun entry => entry.1.unplaced) ∧
      (scopesFrom lines).flatMap Scope.malformedScenarios = [] ∧
      (∀ line ∈ lines, line.role ≠ .announcesStory) ∧
      ∀ line ∈ lines.head?, line.role.endsStory 3 = true := by
  induction entries generalizing lines with
  | nil =>
    obtain rfl : lines = [] := by simpa using hlines
    simp [scopesFrom]
  | cons entry entries ih =>
    rw [List.forall_mem_cons] at h
    rw [List.flatMap_cons, List.map_append] at hlines
    obtain ⟨first, rest, rfl, hfirst, hrest⟩ := List.map_eq_append_iff.mp hlines
    obtain ⟨hscopes, hmalformed, hannounces, hends⟩ := ih h.2 hrest
    obtain ⟨head, body, rfl, hhead, hprose, hread⟩ :=
      exists_lines_of_printedLines h.1.1 h.1.2 hfirst
    obtain ⟨hscenarios, hwell⟩ := Scope.of_readings ⟨head, _, body⟩ hread
    rw [List.cons_append, scopesFrom_cons_append hprose hhead hends]
    refine ⟨?_, ?_, ?_, ?_⟩
    · rw [List.map_cons, List.map_cons, hscopes, unplaced, hscenarios]
      rfl
    · rw [List.flatMap_cons, hwell, hmalformed, List.append_nil]
    · intro line hline
      obtain rfl | hline := List.mem_cons.mp hline
      · simp [hhead]
      · obtain hline | hline := List.mem_append.mp hline
        · simp [hprose line hline]
        · exact hannounces line hline
    · simp [hhead, Line.Role.endsStory]

/-! ### Documents of stories -/

theorem feed_not_mem_printedLines (h : story.Printable) (htrailer : IsTrailer trailer) :
    ∀ line ∈ story.printedLines trailer, '\n' ∉ line := by
  have hnumber : ∀ number : Nat, '\n' ∉ (toString number).toList :=
    fun number hmem => absurd (Label.isDigit_of_mem_toString hmem) (by decide)
  have htag : '\n' ∉ priorityTag story.priority := by
    cases story.priority <;> decide
  intro line hline
  rw [printedLines, List.mem_cons, List.mem_cons, List.mem_map] at hline
  obtain rfl | rfl | ⟨⟨scenario, ordinal⟩, hscenario, rfl⟩ := hline
  · unfold Story.heading
    simp only [List.mem_append, not_or]
    exact ⟨by decide, ⟨⟨⟨⟨⟨by decide, hnumber _⟩, by decide⟩, h.title_feed⟩, by decide⟩, htag⟩,
      htrailer.1⟩
  · exact List.not_mem_nil
  · have hprintable := h.scenarios scenario (List.fst_mem_of_mem_zipIdx hscenario)
    dsimp only
    unfold Scenario.print
    simp only [List.mem_append, not_or]
    exact ⟨⟨⟨⟨⟨⟨hnumber _, by decide⟩, hprintable.precondition.feed_not_mem⟩, by decide⟩,
      hprintable.trigger.feed_not_mem⟩, by decide⟩, hprintable.outcome.feed_not_mem⟩

theorem fence?_printedLines (h : story.Printable) (trailer : Text) :
    ∀ line ∈ story.printedLines trailer, Fence.ofLine? (dropReturn line) = none := by
  intro line hline
  apply Line.fence?_of_head?
  rw [printedLines, List.mem_cons, List.mem_cons, List.mem_map] at hline
  obtain rfl | rfl | ⟨⟨scenario, ordinal⟩, hscenario, rfl⟩ := hline
  · have hreturn : ∀ c ∈ "### ".toList.getLast?, c ≠ '\r' := by decide
    obtain ⟨rest, -, hdrop⟩ := dropReturn_append hreturn (story.heading ++ trailer)
    rw [hdrop]
    intro c hc
    obtain rfl : '#' = c := Option.some.inj hc
    decide
  · exact fun c hc => nomatch hc
  · dsimp only
    rw [dropReturn_print (h.scenarios scenario (List.fst_mem_of_mem_zipIdx hscenario))]
    intro c hc
    have hdigit := isDigit_of_head?_print scenario ordinal c hc
    refine ⟨isWhite_of_isDigit hdigit, ?_⟩
    rw [Fence.isMarker, Bool.or_eq_false_iff, beq_eq_false_iff_ne, beq_eq_false_iff_ne]
    exact ⟨ne_of_keep hdigit rfl, ne_of_keep hdigit rfl⟩

theorem map_message_withoutScenarios {stories stories' : List Story}
    (h : stories.map unplaced = stories'.map unplaced) :
    ((stories.filter fun story => !story.hasScenarios).map withoutScenarios).map
        Diagnostic.message =
      (stories'.filter fun story => !story.hasScenarios).map fun story =>
        s!"user story {story.number} has no acceptance scenarios" := by
  have hunplaced : ∀ stories : List Story,
      ((stories.filter fun story => !story.hasScenarios).map fun story =>
        s!"user story {story.number} has no acceptance scenarios") =
      ((stories.map unplaced).filter fun story => !story.hasScenarios).map fun story =>
        s!"user story {story.number} has no acceptance scenarios" := by
    intro stories
    rw [List.filter_map, List.map_map]
    rfl
  rw [hunplaced stories', ← h, ← hunplaced stories, List.map_map]
  rfl

/-- The numbers that are not above the ones in front of them. -/
def outOfOrderNumbers (numbers : List Nat) : List Nat :=
  (numbers.zip numbers.tail).filterMap fun (previous, next) =>
    if next ≤ previous then some next else none

theorem map_message_outOfOrder (scopes : List Scope) :
    (outOfOrder scopes).map Diagnostic.message =
      (outOfOrderNumbers (scopes.map fun scope => scope.header.number)).map fun number =>
        s!"user story {number} is out of sequence" := by
  rw [outOfOrder, outOfOrderNumbers, ← List.map_tail, List.zip_map, List.filterMap_map,
    List.map_filterMap, List.map_filterMap]
  apply List.filterMap_congr
  rintro ⟨previous, next⟩ -
  by_cases hle : next.header.number ≤ previous.header.number <;> simp [hle, outOfSequence]

/-- Printing stories and reading them gives the same stories back, without their places. The only
warnings are one for each story without scenarios and one for each story with a number that is not
above the one before. -/
theorem ofDocument_print {entries : List (Story × Text)}
    (h : ∀ entry ∈ entries, entry.1.Printable ∧ IsTrailer entry.2) :
    let found := ofDocument (print entries)
    let stories := entries.map Prod.fst
    found.records.map unplaced = stories.map unplaced ∧
      found.withCode .malformedStoryHeader = [] ∧
      found.withCode .malformedScenario = [] ∧
      (found.withCode .storyWithoutScenarios).map Diagnostic.message =
        ((stories.filter fun story => !story.hasScenarios).map fun story =>
          s!"user story {story.number} has no acceptance scenarios") ∧
      (found.withCode .storyOutOfSequence).map Diagnostic.message =
        ((outOfOrderNumbers (stories.map Story.number)).map fun number =>
          s!"user story {number} is out of sequence") := by
  intro found stories
  have hfeed : ∀ line ∈ entries.flatMap fun entry => entry.1.printedLines entry.2,
      '\n' ∉ line := by
    intro line hline
    obtain ⟨entry, hentry, hline⟩ := List.mem_flatMap.mp hline
    exact feed_not_mem_printedLines (h entry hentry).1 (h entry hentry).2 line hline
  have hfence : ∀ line ∈ entries.flatMap fun entry => entry.1.printedLines entry.2,
      Fence.ofLine? (dropReturn line) = none := by
    intro line hline
    obtain ⟨entry, hentry, hline⟩ := List.mem_flatMap.mp hline
    exact fence?_printedLines (h entry hentry).1 entry.2 line hline
  have hlines : (Line.scan (print entries)).map Line.unplaced = _ := Line.scan_feeds hfeed hfence
  obtain ⟨hscopes, hmalformed, hannounces, -⟩ := scopesFrom_print h hlines
  have hrecords : found.records = (scopesFrom (Line.scan (print entries))).map Scope.story :=
    records_collect none none _
  have hstories : found.records.map unplaced = stories.map unplaced := by
    rw [hrecords, List.map_map, List.map_map]
    exact hscopes
  have hnumbers : (scopesFrom (Line.scan (print entries))).map (fun scope => scope.header.number) =
      stories.map Story.number := by
    have hnumbers := congrArg (List.map Story.number) hscopes
    rw [List.map_map, List.map_map] at hnumbers
    rw [List.map_map]
    exact hnumbers
  refine ⟨hstories, ?_, ?_, ?_, ?_⟩
  · have hheaders := withCode_malformedStoryHeader_collect none none (Line.scan (print entries))
    rw [List.filter_eq_nil_iff.mpr (by simpa using hannounces)] at hheaders
    exact hheaders
  · have hitems := withCode_malformedScenario_collect none none (Line.scan (print entries))
    rw [hmalformed] at hitems
    exact hitems
  · rw [← map_message_withoutScenarios hstories]
    exact congrArg (List.map Diagnostic.message)
      (withCode_storyWithoutScenarios_collect none none (Line.scan (print entries)))
  · rw [← hnumbers, ← map_message_outOfOrder, ← outOfOrderFrom_none]
    exact congrArg (List.map Diagnostic.message)
      (withCode_storyOutOfSequence_collect none none (Line.scan (print entries)))

/-- A title that holds a priority tag itself, clauses that hold clause words, and a second story
with the same number. -/
theorem ofDocument_print_two :
    let pay : Story := ⟨3, "Pay (Priority: P1) - again (later)", .p2,
      [⟨"a cart, Given When", "she pays When asked", "it is Then done, When possible"⟩], ⟨0, 0⟩⟩
    let colours : Story := ⟨3, "Colours: # or ##", .p4, [], ⟨0, 0⟩⟩
    let entries := [(pay, " (Prior ##".toList), (colours, "\r".toList)]
    let found := ofDocument (print entries)
    (∀ entry ∈ entries, entry.1.Printable ∧ IsTrailer entry.2) ∧
      found.records.map unplaced = [pay, colours] ∧
      found.withCode .malformedStoryHeader = [] ∧
      found.withCode .malformedScenario = [] ∧
      (found.withCode .storyWithoutScenarios).map Diagnostic.message =
        ["user story 3 has no acceptance scenarios"] ∧
      (found.withCode .storyOutOfSequence).map Diagnostic.message =
        ["user story 3 is out of sequence"] := by
  intro pay colours entries found
  have hpay : pay.Printable :=
    ⟨by decide, by decide, by decide, by decide, List.forall_mem_singleton.mpr
      ⟨⟨by decide, by decide, by decide, by decide, by decide, by decide⟩,
        ⟨by decide, by decide, by decide, by decide, by decide, by decide⟩,
        ⟨by decide, by decide, by decide, by decide, by decide, by decide⟩, by decide, by decide⟩⟩
  have hcolours : colours.Printable :=
    ⟨by decide, by decide, by decide, by decide, List.forall_mem_nil _⟩
  have h : ∀ entry ∈ entries, entry.1.Printable ∧ IsTrailer entry.2 := by
    simp only [entries, List.forall_mem_cons]
    exact ⟨⟨hpay, by decide, by decide⟩, ⟨hcolours, by decide, by decide⟩, List.forall_mem_nil _⟩
  obtain ⟨hrecords, hheaders, hitems, hempty, horder⟩ := ofDocument_print h
  exact ⟨h, hrecords, hheaders, hitems, hempty.trans (by decide), horder.trans (by decide)⟩

end Story

end DiagramSync
