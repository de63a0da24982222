import DiagramSync.Proofs.Text.Search
import DiagramSync.Region.Marker

/-!
The grammar of marker lines, as a product of languages, one for each part of a line. The reader
takes the parts from the left and never goes back into a name that it has read; this costs no line
of the grammar, since a bare name is followed by a space or a tab.

Reading accepts the lines of the grammar and no others. What is rendered for a name is a line of
the grammar if the name is a valid one, and otherwise a form of no marker at all.
-/

namespace DiagramSync.Marker

open Text

/-! ### The grammar -/

/-- Any number of spaces and tabs. -/
def spaces : Language Char :=
  {text | ∀ c ∈ text, c = ' ' ∨ c = '\t'}

/-- Spaces and tabs, at least one. -/
def someSpaces : Language Char :=
  {text | text ≠ [] ∧ ∀ c ∈ text, c = ' ' ∨ c = '\t'}

/-- The text is not empty and made of ASCII letters, digits, `_` and `-`. -/
def IsName (name : Text) : Prop :=
  name ≠ [] ∧ ∀ c ∈ name, ('A' ≤ c ∧ c ≤ 'Z') ∨ ('a' ≤ c ∧ c ≤ 'z') ∨ ('0' ≤ c ∧ c ≤ '9') ∨
    c = '_' ∨ c = '-'

/-- The forms of a name: in quotes, or bare with a space or a tab behind it. -/
def writtenName (name : Text) : Language Char :=
  {['"']} * {name} * {['"']} + {name} * someSpaces

/-- The line is a form of the marker. -/
def Written (marker : Marker) (line : Text) : Prop :=
  IsName marker.name.toList ∧
    line ∈ spaces * {"<!--".toList} * spaces * {"specgram:".toList} *
      {marker.side.keyword.toList} * someSpaces * {"section".toList} * spaces * {['=']} * spaces *
      writtenName marker.name.toList * spaces * {"-->".toList} * spaces

/-! ### Reading from the left -/

section Steps

variable {text word name rest : Text} {language : Language Char}

theorem mem_spaces : text ∈ spaces ↔ ∀ c ∈ text, isSpace c = true := by
  simp only [isSpace_iff]
  exact Iff.rfl

theorem mem_someSpaces : text ∈ someSpaces ↔ text ≠ [] ∧ ∀ c ∈ text, isSpace c = true := by
  simp only [isSpace_iff]
  exact Iff.rfl

theorem isName_iff : IsName name ↔ name ≠ [] ∧ ∀ c ∈ name, isNameChar c = true := by
  simp [IsName, isNameChar, isAsciiAlphanum_iff, or_assoc]

theorem isValidName_iff {name : String} : isValidName name = true ↔ IsName name.toList := by
  simp [isValidName, isName_iff]

theorem IsName.not_mem (h : IsName name) {c : Char} (hc : isNameChar c = false) : c ∉ name := by
  intro hmem
  rw [(isName_iff.mp h).2 c hmem] at hc
  contradiction

theorem mem_literal_mul :
    text ∈ {word} * language ↔ ∃ rest, stripPrefix? word text = some rest ∧ rest ∈ language := by
  simp only [stripPrefix?_eq_some_iff]
  constructor
  · rintro ⟨_, rfl, rest, hrest, rfl⟩
    exact ⟨rest, rfl, hrest⟩
  · rintro ⟨rest, rfl, hrest⟩
    exact Language.append_mem_mul rfl hrest

/-- Nothing in the language begins with a space or a tab. -/
def Flush (language : Language Char) : Prop :=
  ∀ text ∈ language, ∀ c ∈ text.head?, isSpace c = false

/-- Returns `true` for a word that begins with another character than a space or a tab. -/
def beginsFlush (word : Text) : Bool :=
  word.head?.any fun c => !isSpace c

theorem beginsFlush_literals : beginsFlush "<!--".toList = true ∧
    beginsFlush "specgram:".toList = true ∧ beginsFlush "section".toList = true ∧
    beginsFlush ['='] = true ∧ beginsFlush "-->".toList = true := by
  decide

theorem flush_literal_mul (h : beginsFlush word = true) : Flush ({word} * language) := by
  rintro _ ⟨front, hfront, rest, -, rfl⟩
  obtain rfl : front = word := hfront
  cases front with
  | nil => contradiction
  | cons c others => simpa [beginsFlush] using h

theorem flush_writtenName_mul (hname : IsName name) : Flush (writtenName name * language) := by
  rintro _ ⟨written, hwritten, rest, -, rfl⟩
  obtain ⟨_, ⟨_, rfl, _, rfl, rfl⟩, _, rfl, rfl⟩ | ⟨_, rfl, blanks, -, rfl⟩ := hwritten
  · simp [isSpace]
  · obtain ⟨c, others, rfl⟩ := List.exists_cons_of_ne_nil hname.1
    have hc : isNameChar c = true := (isName_iff.mp hname).2 c List.mem_cons_self
    simpa using isSpace_eq_false (Label.isWhite_of_isIdChar hc)

/-- All spaces and tabs can be skipped in front of a part that begins with neither. -/
theorem mem_spaces_mul (h : Flush language) :
    text ∈ spaces * language ↔ skipSpaces text ∈ language := by
  constructor
  · rintro ⟨blanks, hblanks, rest, hrest, rfl⟩
    have hskip : skipSpaces (blanks ++ rest) = rest := by
      rw [skipSpaces, List.dropWhile_append_of_pos (mem_spaces.mp hblanks)]
      exact skipSpaces_of_head? (h rest hrest)
    exact hskip.symm ▸ hrest
  · intro hrest
    rw [← List.takeWhile_append_dropWhile (p := isSpace) (l := text)]
    exact Language.append_mem_mul (mem_spaces.mpr (List.all_eq_true.mp List.all_takeWhile)) hrest

theorem mem_someSpaces_mul (h : Flush language) :
    text ∈ someSpaces * language ↔ ∃ rest, skipSpaces1? text = some rest ∧ rest ∈ language := by
  simp only [skipSpaces1?_eq_some_iff]
  constructor
  · rintro ⟨blanks, hblanks, rest, hrest, rfl⟩
    obtain ⟨hne, hall⟩ := mem_someSpaces.mp hblanks
    exact ⟨rest, ⟨blanks, rfl, hne, hall, h rest hrest⟩, hrest⟩
  · rintro ⟨rest, ⟨blanks, rfl, hne, hall, -⟩, hrest⟩
    exact Language.append_mem_mul (mem_someSpaces.mpr ⟨hne, hall⟩) hrest

theorem mem_spaces_literal_mul (h : beginsFlush word = true) :
    text ∈ spaces * ({word} * language) ↔
      ∃ rest, stripPrefix? word (skipSpaces text) = some rest ∧ rest ∈ language := by
  rw [mem_spaces_mul (flush_literal_mul h), mem_literal_mul]

theorem isEmpty_skipSpaces_iff : (skipSpaces text).isEmpty = true ↔ text ∈ spaces := by
  rw [List.isEmpty_iff, skipSpaces, List.dropWhile_eq_nil_iff, mem_spaces]

theorem side?_eq_some_iff {side : Side} :
    side? text = some (side, rest) ↔ stripPrefix? side.keyword.toList text = some rest := by
  rw [side?]
  cases hbegin : stripPrefix? "begin".toList text with
  | some behind =>
    obtain rfl := stripPrefix?_eq_some_iff.mp hbegin
    cases side <;> simp [Side.keyword, stripPrefix?]
  | none =>
    cases side with
    | begins =>
      rw [Side.keyword, hbegin]
      simp
    | ends => simp [Side.keyword]

theorem side?_keyword_append (side : Side) (rest : Text) :
    side? (side.keyword.toList ++ rest) = some (side, rest) :=
  side?_eq_some_iff.mpr (stripPrefix?_append _ rest)

theorem skipSpaces_append (h : beginsFlush word = true) :
    skipSpaces (word ++ rest) = word ++ rest := by
  cases word with
  | nil => contradiction
  | cons c others => exact skipSpaces_of_head? (by simpa [beginsFlush] using h)

theorem skipSpaces_cons_space : skipSpaces (' ' :: text) = skipSpaces text := rfl

theorem skipSpaces1?_cons_space : skipSpaces1? (' ' :: text) = some (skipSpaces text) := rfl

/-! ### Names -/

theorem quotedName?_eq_some_iff : quotedName? text = some (name, rest) ↔
    IsName name ∧ text = '"' :: (name ++ '"' :: rest) := by
  simp only [quotedName?, isName_iff, Option.bind_eq_bind, Option.bind_eq_some_iff, Prod.exists,
    span1?_eq_some_iff, stripPrefix?_eq_some_iff, pure, Option.some.injEq, Prod.mk.injEq,
    List.singleton_append]
  constructor
  · rintro ⟨_, rfl, _, _, ⟨rfl, hne, hall, -⟩, _, rfl, rfl, rfl⟩
    exact ⟨⟨hne, hall⟩, rfl⟩
  · rintro ⟨⟨hne, hall⟩, rfl⟩
    have hquote : ∀ c ∈ ('"' :: rest).head?, isNameChar c = false := by
      rintro _ ⟨⟩
      rfl
    exact ⟨_, rfl, name, _, ⟨rfl, hne, hall, hquote⟩, rest, rfl, rfl, rfl⟩

/-- A bare name is the longest one. It never stands where a name in quotes could be read. -/
theorem name?_eq_some_iff : name? text = some (name, rest) ↔
    IsName name ∧ (text = '"' :: (name ++ '"' :: rest) ∨
      text = name ++ rest ∧ ∀ c ∈ rest.head?, isNameChar c = false) := by
  rw [name?, and_or_left, ← quotedName?_eq_some_iff]
  cases hquoted : quotedName? text with
  | some found =>
    obtain ⟨-, htext⟩ := quotedName?_eq_some_iff.mp hquoted
    rw [or_iff_left]
    rintro ⟨hname, hbare, -⟩
    obtain ⟨c, others, rfl⟩ := List.exists_cons_of_ne_nil hname.1
    obtain ⟨rfl, -⟩ := List.cons.inj (htext.symm.trans hbare)
    exact hname.not_mem (c := '"') rfl List.mem_cons_self
  | none =>
    rw [or_iff_right (by simp), span1?_eq_some_iff, isName_iff]
    tauto

/-- The dashes that close the comment would go on with a bare name, so there is a space or a tab
in front of them. -/
theorem mem_writtenName_mul (hname : IsName name) :
    text ∈ writtenName name * (spaces * ({"-->".toList} * language)) ↔
      ∃ rest, name? text = some (name, rest) ∧ rest ∈ spaces * ({"-->".toList} * language) := by
  simp only [name?_eq_some_iff, hname, true_and]
  constructor
  · rintro ⟨written, hwritten, rest, hrest, rfl⟩
    obtain ⟨_, ⟨_, rfl, _, rfl, rfl⟩, _, rfl, rfl⟩ | ⟨_, rfl, blanks, hblanks, rfl⟩ := hwritten
    · exact ⟨rest, .inl (by simp), hrest⟩
    · obtain ⟨hne, hall⟩ := mem_someSpaces.mp hblanks
      obtain ⟨more, hmore, behind, hbehind, rfl⟩ := hrest
      refine ⟨blanks ++ (more ++ behind), .inr ⟨by simp, ?_⟩, ?_⟩
      · rw [List.head?_append_of_ne_nil _ hne]
        intro c hc
        obtain rfl | rfl := isSpace_iff.mp (hall c (List.mem_of_mem_head? hc)) <;> rfl
      · rw [← List.append_assoc]
        refine Language.append_mem_mul (mem_spaces.mpr ?_) hbehind
        exact List.forall_mem_append.mpr ⟨hall, mem_spaces.mp hmore⟩
  · rintro ⟨rest, rfl | ⟨rfl, hhead⟩, hrest⟩
    · have hwritten : '"' :: (name ++ ['"']) ∈ writtenName name :=
        .inl ⟨_, ⟨_, rfl, _, rfl, rfl⟩, _, rfl, by simp⟩
      simpa using Language.append_mem_mul hwritten hrest
    · obtain ⟨blanks, hblanks, behind, hbehind, rfl⟩ := hrest
      obtain ⟨_, rfl, final, -, rfl⟩ := Language.mem_mul.mp hbehind
      have hne : blanks ≠ [] := by
        rintro rfl
        exact absurd (hhead '-' rfl) (by decide)
      have hwritten : name ++ blanks ∈ writtenName name :=
        .inr ⟨_, rfl, _, mem_someSpaces.mpr ⟨hne, mem_spaces.mp hblanks⟩, rfl⟩
      have hfinal : [] ++ ("-->".toList ++ final) ∈ spaces * ({"-->".toList} * language) :=
        Language.append_mem_mul (mem_spaces.mpr (by simp)) hbehind
      simpa using Language.append_mem_mul hwritten hfinal

end Steps

/-! ### Lines -/

/-- What is left to read behind each part of a line of the grammar. -/
theorem written_iff {side : Side} {name : String} {line : Text} :
    Written ⟨side, name⟩ line ↔
      ∃ a, stripPrefix? "<!--".toList (skipSpaces line) = some a ∧
      ∃ b, stripPrefix? "specgram:".toList (skipSpaces a) = some b ∧
      ∃ c, side? b = some (side, c) ∧
      ∃ d, skipSpaces1? c = some d ∧
      ∃ e, stripPrefix? "section".toList d = some e ∧
      ∃ f, stripPrefix? ['='] (skipSpaces e) = some f ∧
      ∃ g, name? (skipSpaces f) = some (name.toList, g) ∧
      ∃ final, stripPrefix? "-->".toList (skipSpaces g) = some final ∧
        (skipSpaces final).isEmpty = true := by
  obtain ⟨hopen, htag, hkey, hequals, hclose⟩ := beginsFlush_literals
  by_cases hname : IsName name.toList
  · simp only [Written, mul_assoc, hname, true_and, mem_spaces_literal_mul hopen,
      mem_spaces_literal_mul htag, mem_literal_mul, side?_eq_some_iff,
      mem_someSpaces_mul (flush_literal_mul hkey), mem_spaces_literal_mul hequals,
      mem_spaces_mul (flush_writtenName_mul hname), mem_writtenName_mul hname,
      mem_spaces_literal_mul hclose, isEmpty_skipSpaces_iff]
  · simp [Written, hname, name?_eq_some_iff]

theorem parse?_eq_some_iff {line : Text} {marker : Marker} :
    parse? line = some marker ↔ Written marker line := by
  obtain ⟨side, name⟩ := marker
  rw [written_iff]
  simp only [parse?, Option.bind_eq_bind, Option.bind_eq_some_iff, Prod.exists]
  constructor
  · rintro ⟨a, ha, b, hb, side, c, hc, d, hd, e, he, f, hf, name, g, hg, final, hfinal, h⟩
    split at h
    · rename_i hempty
      obtain ⟨rfl, rfl⟩ := Marker.mk.inj (Option.some.inj h)
      rw [← String.toList_ofList (l := name)] at hg
      exact ⟨a, ha, b, hb, c, hc, d, hd, e, he, f, hf, g, hg, final, hfinal, hempty⟩
    · contradiction
  · rintro ⟨a, ha, b, hb, c, hc, d, hd, e, he, f, hf, g, hg, final, hfinal, hempty⟩
    refine ⟨a, ha, b, hb, side, c, hc, d, hd, e, he, f, hf, name.toList, g, hg, final, hfinal, ?_⟩
    rw [if_pos hempty, String.ofList_toList]
    rfl

theorem quote_not_mem_of_closes {text rest : Text}
    (h : stripPrefix? "-->".toList (skipSpaces text) = some rest)
    (hrest : (skipSpaces rest).isEmpty = true) : '"' ∉ text := by
  rw [isEmpty_skipSpaces_iff, mem_spaces] at hrest
  rw [← List.takeWhile_append_dropWhile (p := isSpace) (l := text), ← skipSpaces,
    stripPrefix?_eq_some_iff.mp h]
  simp only [List.mem_append, not_or]
  refine ⟨fun hmem => ?_, by decide, fun hmem => ?_⟩
  · exact absurd (List.all_eq_true.mp List.all_takeWhile _ hmem) (by decide)
  · exact absurd (hrest _ hmem) (by decide)

theorem toList_render (side : Side) (name : String) : (render ⟨side, name⟩).toList =
    "<!--".toList ++ ' ' :: ("specgram:".toList ++ (side.keyword.toList ++ ' ' ::
      ("section".toList ++ (['='] ++ '"' :: (name.toList ++ '"' :: " -->".toList))))) := by
  have hrender : render ⟨side, name⟩ =
      "<!-- specgram:" ++ side.keyword ++ " section=\"" ++ name ++ "\" -->" := rfl
  rw [hrender]
  simp

/-- Up to the name there is one way to read a line that is rendered. -/
theorem written_toList_render {side side' : Side} {name name' : String} :
    Written ⟨side', name'⟩ (render ⟨side, name⟩).toList ↔ side' = side ∧
      ∃ rest, name? ('"' :: (name.toList ++ '"' :: " -->".toList)) = some (name'.toList, rest) ∧
      ∃ final, stripPrefix? "-->".toList (skipSpaces rest) = some final ∧
        (skipSpaces final).isEmpty = true := by
  obtain ⟨hopen, htag, hkey, hequals, -⟩ := beginsFlush_literals
  have hquote : skipSpaces ('"' :: (name.toList ++ '"' :: " -->".toList)) =
      '"' :: (name.toList ++ '"' :: " -->".toList) := rfl
  rw [written_iff, toList_render]
  simp only [skipSpaces_append hopen, skipSpaces_cons_space, skipSpaces_append htag,
    side?_keyword_append, skipSpaces1?_cons_space, skipSpaces_append hkey,
    skipSpaces_append hequals, hquote, stripPrefix?_append, Option.some.injEq, Prod.mk.injEq,
    exists_eq_left', exists_and_left, and_assoc, @eq_comm _ side side']

/-- What is rendered is a form of the marker or of none. A name cannot bring along another end of
itself, as there is one quote in front of it and one behind it. -/
theorem written_render_iff {marker found : Marker} :
    Written found marker.render.toList ↔ found = marker ∧ IsName marker.name.toList := by
  obtain ⟨side, name⟩ := marker
  obtain ⟨side', name'⟩ := found
  rw [written_toList_render, Marker.mk.injEq, and_assoc]
  refine and_congr_right fun _ => ?_
  constructor
  · rintro ⟨rest, hname, final, hfinal, hempty⟩
    obtain ⟨hisName, hquoted | ⟨hbare, -⟩⟩ := name?_eq_some_iff.mp hname
    · obtain ⟨hsame, -⟩ := (List.append_cons_inj_of_notMem (hisName.not_mem rfl)
        (quote_not_mem_of_closes hfinal hempty)).mp (List.cons.inj hquoted).2.symm
      exact ⟨String.toList_inj.mp hsame, hsame ▸ hisName⟩
    · obtain ⟨c, others, hcons⟩ := List.exists_cons_of_ne_nil hisName.1
      rw [hcons] at hbare
      obtain ⟨rfl, -⟩ := List.cons.inj hbare
      exact absurd (hcons ▸ List.mem_cons_self) (hisName.not_mem (c := '"') rfl)
  · rintro ⟨rfl, hname⟩
    exact ⟨" -->".toList, name?_eq_some_iff.mpr ⟨hname, .inl rfl⟩, [], by decide, by decide⟩

/-- A line is read as a marker exactly if it is a form of it. So the line that is rendered for a
marker is read back if the marker has a valid name, and as no marker otherwise. -/
theorem parse?_accepts_written :
    (∀ (line : Text) (marker : Marker), parse? line = some marker ↔ Written marker line) ∧
      ∀ marker : Marker, parse? marker.render.toList =
        if isValidName marker.name then some marker else none := by
  refine ⟨fun line marker => parse?_eq_some_iff, fun marker => ?_⟩
  by_cases hname : isValidName marker.name = true
  · rw [if_pos hname, parse?_eq_some_iff, written_render_iff]
    exact ⟨rfl, isValidName_iff.mp hname⟩
  · rw [if_neg hname, Option.eq_none_iff_forall_ne_some]
    intro found hfound
    rw [parse?_eq_some_iff, written_render_iff] at hfound
    exact hname (isValidName_iff.mpr hfound.2)

/-- A bare name takes along the dashes of what should close the line. -/
example : parse? "<!-- specgram:end section=a-->".toList = none ∧
    parse? "<!-- specgram:end section=a- -->".toList = some ⟨.ends, "a-"⟩ := by
  decide +kernel

end DiagramSync.Marker
