import DiagramSync.Proofs.Text.Words
import Mathlib

/-!
Searching, cutting and replacing in a text that is put together from parts. What is looked for
is found where a part was put, as long as it does not occur before and does not reach across the
seam.
-/

namespace DiagramSync.Text

variable {pattern replacement before after : Text} {c : Char}

/-! ### Occurrences -/

theorem prefix_of_prefix_append_cons (hc : c ∉ pattern) (h : pattern <+: before ++ c :: after) :
    pattern <+: before := by
  obtain ⟨rest, hrest⟩ := h
  obtain ⟨middle, rfl, -⟩ | ⟨middle, rfl, hmiddle⟩ := List.append_eq_append_iff.mp hrest
  · exact List.prefix_append _ _
  · cases middle with
    | nil => simp
    | cons d middle =>
      obtain ⟨rfl, -⟩ := List.cons.inj hmiddle
      simp at hc

theorem stripPrefix?_eq_none_iff {text : Text} :
    stripPrefix? pattern text = none ↔ ¬ pattern <+: text := by
  rw [Option.eq_none_iff_forall_not_mem]
  constructor
  · rintro hnone ⟨rest, rfl⟩
    exact hnone rest (stripPrefix?_append pattern rest)
  · rintro hbegins rest hrest
    exact hbegins ⟨rest, (stripPrefix?_eq_some_iff.mp hrest).symm⟩

theorem splitOnce?_eq_none_iff {text : Text} :
    splitOnce? pattern text = none ↔ ¬ pattern <:+: text := by
  induction text with
  | nil => cases pattern <;> simp [splitOnce?]
  | cons c rest ih =>
    rw [splitOnce?, List.infix_cons_iff, not_or, ← ih, ← stripPrefix?_eq_none_iff]
    cases stripPrefix? pattern (c :: rest) <;> simp

theorem contains_eq_false_iff {text : Text} :
    contains pattern text = false ↔ ¬ pattern <:+: text := by
  rw [contains, Option.isSome_eq_false_iff, Option.isNone_iff_eq_none, splitOnce?_eq_none_iff]

theorem contains_eq_true_iff {text : Text} : contains pattern text = true ↔ pattern <:+: text := by
  rw [← Bool.not_eq_false, contains_eq_false_iff, not_not]

/-- A pattern occurs first behind a character that it does not hold, unless it occurs before. -/
theorem splitOnce?_append_cons (hpattern : pattern ≠ []) (hc : c ∉ pattern)
    (hbefore : ¬ pattern <:+: before) (after : Text) :
    splitOnce? pattern (before ++ c :: (pattern ++ after)) = some (before ++ [c], after) := by
  induction before with
  | nil =>
    obtain ⟨p, pattern, rfl⟩ := List.exists_cons_of_ne_nil hpattern
    have hne : ¬ p = c := by
      rintro rfl
      simp at hc
    rw [List.nil_append, splitOnce?, stripPrefix?, if_neg hne]
    have hstrip := stripPrefix?_append (p :: pattern) after
    rw [List.cons_append] at hstrip ⊢
    rw [splitOnce?, hstrip]
    rfl
  | cons d rest ih =>
    have hnone : stripPrefix? pattern (d :: rest ++ c :: (pattern ++ after)) = none := by
      rw [stripPrefix?_eq_none_iff]
      intro hbegins
      exact hbefore (prefix_of_prefix_append_cons hc hbegins).isInfix
    rw [List.cons_append] at hnone ⊢
    rw [splitOnce?, hnone, ih fun hwithin => hbefore (List.infix_cons hwithin)]
    rfl

theorem length_le_of_splitOnce?_eq_some {pattern text before after before' after' : Text}
    (h : splitOnce? pattern text = some (before, after))
    (htext : text = before' ++ pattern ++ after') : before.length ≤ before'.length := by
  induction text generalizing before before' with
  | nil =>
    rw [splitOnce?] at h
    split at h
    · obtain ⟨rfl, -⟩ := Prod.mk.inj (Option.some.inj h)
      exact Nat.zero_le _
    · contradiction
  | cons c rest ih =>
    rw [splitOnce?] at h
    split at h
    · obtain ⟨rfl, -⟩ := Prod.mk.inj (Option.some.inj h)
      exact Nat.zero_le _
    · rename_i hstrip
      obtain ⟨⟨front, after⟩, hfound, hpair⟩ := Option.map_eq_some_iff.mp h
      obtain ⟨rfl, rfl⟩ := Prod.mk.inj hpair
      cases before' with
      | nil => exact absurd ⟨after', htext.symm⟩ (stripPrefix?_eq_none_iff.mp hstrip)
      | cons d front' =>
        have hle := ih hfound (List.cons.inj htext).2
        simpa using hle

theorem splitAtLast?_eq_none {begins : Text → Bool} {text : Text}
    (h : ∀ part, part <:+ text → begins part = false) : splitAtLast? begins text = none := by
  induction text with
  | nil => rfl
  | cons c rest ih =>
    rw [splitAtLast?, ih fun part hpart => h part (hpart.trans (List.suffix_cons c rest)),
      h (c :: rest) List.suffix_rfl]
    rfl

theorem splitAtLast?_append_cons {begins : Text → Bool} (hbegins : begins (c :: after) = true)
    (hlast : ∀ part, part <:+ after → begins part = false) (before : Text) :
    splitAtLast? begins (before ++ c :: after) = some (before, c :: after) := by
  induction before with
  | nil =>
    rw [List.nil_append, splitAtLast?, splitAtLast?_eq_none hlast]
    exact if_pos hbegins
  | cons d rest ih => rw [List.cons_append, splitAtLast?, ih]

/-! ### Replacing -/

theorem replaceAll_cons_of_begins {text : Text} (h : pattern <+: c :: text) :
    replaceAll pattern replacement (c :: text) =
      replacement ++ replaceAll pattern replacement (text.drop (pattern.length - 1)) := by
  rw [replaceAll, if_pos (List.isPrefixOf_iff_prefix.mpr h)]

theorem replaceAll_cons_of_not_begins {text : Text} (h : ¬ pattern <+: c :: text) :
    replaceAll pattern replacement (c :: text) = c :: replaceAll pattern replacement text := by
  rw [replaceAll, if_neg (by rwa [List.isPrefixOf_iff_prefix])]

theorem replaceAll_append_cons (hpattern : pattern ≠ []) (hc : c ∉ pattern)
    (replacement before after : Text) :
    replaceAll pattern replacement (before ++ c :: after) =
      replaceAll pattern replacement before ++ c :: replaceAll pattern replacement after := by
  fun_induction replaceAll pattern replacement before with
  | case1 =>
    refine replaceAll_cons_of_not_begins fun hbegins => ?_
    rw [← List.nil_append (c :: after)] at hbegins
    exact hpattern (List.prefix_nil.mp (prefix_of_prefix_append_cons hc hbegins))
  | case2 d rest hbegins ih =>
    have hrest : pattern <+: d :: rest := List.isPrefixOf_iff_prefix.mp hbegins
    have hlength : pattern.length - 1 ≤ rest.length := by
      have := hrest.length_le
      simp only [List.length_cons] at this
      omega
    have hlong : pattern <+: d :: (rest ++ c :: after) :=
      hrest.trans (List.prefix_append (d :: rest) (c :: after))
    rw [List.cons_append, replaceAll_cons_of_begins hlong, List.drop_append_of_le_length hlength,
      ih, List.append_assoc]
  | case3 d rest hbegins ih =>
    have hlong : ¬ pattern <+: d :: (rest ++ c :: after) := by
      rw [List.isPrefixOf_iff_prefix] at hbegins
      rw [← List.cons_append]
      exact fun hlong => hbegins (prefix_of_prefix_append_cons hc hlong)
    rw [List.cons_append, replaceAll_cons_of_not_begins hlong, ih, List.cons_append]

theorem replaceAll_of_not_within {text : Text} (h : ¬ pattern <:+: text) (replacement : Text) :
    replaceAll pattern replacement text = text := by
  induction text with
  | nil => rw [replaceAll]
  | cons d rest ih =>
    rw [replaceAll_cons_of_not_begins fun hbegins => h hbegins.isInfix,
      ih fun hwithin => h (List.infix_cons hwithin)]

/-! ### Classes of characters -/

theorem isSpace_iff : isSpace c = true ↔ c = ' ' ∨ c = '\t' := by
  simp [isSpace]

theorem isAsciiAlphanum_iff : isAsciiAlphanum c = true ↔
    ('A' ≤ c ∧ c ≤ 'Z') ∨ ('a' ≤ c ∧ c ≤ 'z') ∨ ('0' ≤ c ∧ c ≤ '9') := by
  simp [isAsciiAlphanum, Char.isAlphanum, Char.isAlpha, Char.isUpper, Char.isLower, Char.isDigit,
    Char.le_def, or_assoc]

theorem ne_of_keep {keep : Char → Bool} {d : Char} (hc : keep c = true) (hd : keep d = false) :
    c ≠ d := by
  rintro rfl
  simp [hc] at hd

theorem eq_of_toLower_eq {d : Char} (hd : d.isAlpha = false) (h : c.toLower = d) : c = d := by
  have hupper : ¬ c.isUpper = true := by
    rw [← h, Char.isAlpha_toLower_eq_isAlpha, Char.isAlpha, Bool.or_eq_false_iff] at hd
    simp [hd.1]
  rw [← h, Char.toLower_eq_of_not_isUpper hupper]

/-! ### Beginnings and endings -/

theorem stripPrefixNoCase?_eq_some_iff {text rest : Text} :
    stripPrefixNoCase? pattern text = some rest ↔
      ∃ front, text = front ++ rest ∧ front.map Char.toLower = pattern.map Char.toLower := by
  induction pattern generalizing text with
  | nil =>
    rw [stripPrefixNoCase?]
    constructor
    · rintro h
      exact ⟨[], by simpa using h, rfl⟩
    · rintro ⟨front, rfl, hfront⟩
      rw [List.map_nil, List.map_eq_nil_iff] at hfront
      rw [hfront, List.nil_append]
  | cons p pattern ih =>
    cases text with
    | nil =>
      rw [stripPrefixNoCase?]
      constructor
      · intro h
        contradiction
      · rintro ⟨front, htext, hfront⟩
        rw [(List.append_eq_nil_iff.mp htext.symm).1] at hfront
        contradiction
    | cons c text =>
      rw [stripPrefixNoCase?]
      split
      · rename_i hc
        rw [ih]
        constructor
        · rintro ⟨front, rfl, hfront⟩
          exact ⟨c :: front, rfl, by rw [List.map_cons, List.map_cons, hfront, hc]⟩
        · rintro ⟨front, htext, hfront⟩
          cases front with
          | nil => contradiction
          | cons d front =>
            obtain ⟨rfl, rfl⟩ := List.cons.inj htext
            exact ⟨front, rfl, (List.cons.inj hfront).2⟩
      · rename_i hc
        constructor
        · intro h
          contradiction
        · rintro ⟨front, htext, hfront⟩
          cases front with
          | nil => contradiction
          | cons d front =>
            obtain ⟨rfl, rfl⟩ := List.cons.inj htext
            exact absurd (List.cons.inj hfront).1.symm hc

theorem isSpace_eq_false (h : isWhite c = false) : isSpace c = false := by
  rw [isSpace, Bool.or_eq_false_iff, beq_eq_false_iff_ne, beq_eq_false_iff_ne]
  constructor <;> rintro rfl <;> contradiction

theorem skipSpaces_of_head? {text : Text} (h : ∀ c ∈ text.head?, isSpace c = false) :
    skipSpaces text = text := by
  cases text with
  | nil => rfl
  | cons c rest => exact List.dropWhile_cons_of_neg (by simpa using h)

theorem forall_mem_head?_dropWhile (drop : Char → Bool) (text : Text) :
    ∀ c ∈ (text.dropWhile drop).head?, drop c = false := by
  intro c hc
  have hhead := List.head?_dropWhile_not drop text
  rw [Option.mem_def] at hc
  rwa [hc] at hhead

theorem span1?_append {keep : Char → Bool} {word rest : Text} (hne : word ≠ [])
    (hword : ∀ c ∈ word, keep c = true) (hrest : ∀ c ∈ rest.head?, keep c = false) :
    span1? keep (word ++ rest) = some (word, rest) := by
  have htake : rest.takeWhile keep = [] := by
    cases rest with
    | nil => rfl
    | cons c rest => exact List.takeWhile_cons_of_neg (by simpa using hrest)
  have hdrop : rest.dropWhile keep = rest := by
    cases rest with
    | nil => rfl
    | cons c rest => exact List.dropWhile_cons_of_neg (by simpa using hrest)
  rw [span1?, List.takeWhile_append_of_pos hword, List.dropWhile_append_of_pos hword, htake, hdrop,
    List.append_nil]
  split
  · contradiction
  · rfl

theorem span1?_append_cons {keep : Char → Bool} {word : Text} (hne : word ≠ [])
    (hword : ∀ c ∈ word, keep c = true) {c : Char} (hc : keep c = false) (rest : Text) :
    span1? keep (word ++ c :: rest) = some (word, c :: rest) :=
  span1?_append hne hword (by simpa using hc)

theorem span1?_of_forall {keep : Char → Bool} {word : Text} (hne : word ≠ [])
    (hword : ∀ c ∈ word, keep c = true) : span1? keep word = some (word, []) := by
  have hspan : span1? keep (word ++ []) = some (word, []) := span1?_append hne hword (by simp)
  rwa [List.append_nil] at hspan

theorem of_span1?_eq_some {keep : Char → Bool} {text word rest : Text}
    (h : span1? keep text = some (word, rest)) :
    word ≠ [] ∧ (∀ c ∈ word, keep c = true) ∧ rest = text.dropWhile keep := by
  rw [span1?] at h
  split at h
  · contradiction
  · rename_i hne
    obtain ⟨rfl, rfl⟩ := Prod.mk.inj (Option.some.inj h)
    exact ⟨hne, List.all_eq_true.mp List.all_takeWhile, rfl⟩

theorem span1?_eq_some_iff {keep : Char → Bool} {text word rest : Text} :
    span1? keep text = some (word, rest) ↔ text = word ++ rest ∧ word ≠ [] ∧
      (∀ c ∈ word, keep c = true) ∧ ∀ c ∈ rest.head?, keep c = false := by
  constructor
  · intro h
    obtain ⟨hne, hword, rfl⟩ := of_span1?_eq_some h
    refine ⟨?_, hne, hword, forall_mem_head?_dropWhile keep text⟩
    rw [span1?] at h
    split at h
    · contradiction
    · obtain ⟨rfl, -⟩ := Prod.mk.inj (Option.some.inj h)
      exact List.takeWhile_append_dropWhile.symm
  · rintro ⟨rfl, hne, hword, hrest⟩
    exact span1?_append hne hword hrest

theorem trimEndWhere_append {drop : Char → Bool} (h : ∀ c ∈ before.getLast?, drop c = false)
    (after : Text) : trimEndWhere drop (before ++ after) = before ++ trimEndWhere drop after := by
  rw [trimEndWhere, List.reverse_append, List.dropWhile_append]
  split
  · rename_i hempty
    rw [List.isEmpty_iff] at hempty
    have hbefore : before.reverse.dropWhile drop = before.reverse := by
      rw [← List.head?_reverse] at h
      cases hreverse : before.reverse with
      | nil => rfl
      | cons c rest => exact List.dropWhile_cons_of_neg (by simp [h c (by simp [hreverse])])
    rw [hbefore, trimEndWhere, hempty]
    simp
  · simp [trimEndWhere]

theorem trimEndWhere_begins (drop : Char → Bool) (text : Text) :
    trimEndWhere drop text <+: text := by
  rw [trimEndWhere, ← List.reverse_suffix, List.reverse_reverse]
  exact List.dropWhile_suffix drop

theorem trimmed_of_trim_eq {text : Text} (h : trim text = text) : Trimmed text := by
  have hstart : trimStart text = text := by
    have hbegins : trim text <+: trimStart text := trimEndWhere_begins isWhite (trimStart text)
    rw [h] at hbegins
    exact (List.dropWhile_suffix isWhite).eq_of_length_le hbegins.length_le
  constructor
  · rw [← hstart]
    exact forall_mem_head?_dropWhile isWhite text
  · rw [trim, hstart] at h
    rw [← h, trimEnd, trimEndWhere, List.getLast?_reverse]
    exact forall_mem_head?_dropWhile isWhite text.reverse

theorem skipSpaces1?_eq_some_iff {text behind : Text} : skipSpaces1? text = some behind ↔
    ∃ blanks, text = blanks ++ behind ∧ blanks ≠ [] ∧ (∀ c ∈ blanks, isSpace c = true) ∧
      ∀ c ∈ behind.head?, isSpace c = false := by
  constructor
  · intro h
    cases text with
    | nil => contradiction
    | cons c rest =>
      cases hc : isSpace c with
      | false => simp [skipSpaces1?, hc] at h
      | true =>
        obtain rfl : skipSpaces rest = behind := by simpa [skipSpaces1?, hc] using h
        refine ⟨c :: rest.takeWhile isSpace, ?_, by simp, ?_,
          forall_mem_head?_dropWhile isSpace rest⟩
        · rw [List.cons_append, skipSpaces, List.takeWhile_append_dropWhile]
        · exact List.forall_mem_cons.mpr ⟨hc, List.all_eq_true.mp List.all_takeWhile⟩
  · rintro ⟨blanks, rfl, hne, hblanks, hbehind⟩
    obtain ⟨c, rest, rfl⟩ := List.exists_cons_of_ne_nil hne
    rw [List.forall_mem_cons] at hblanks
    have hskip : skipSpaces (rest ++ behind) = behind := by
      rw [skipSpaces, List.dropWhile_append_of_pos hblanks.2]
      cases behind with
      | nil => rfl
      | cons d behind => exact List.dropWhile_cons_of_neg (by simp [hbehind d rfl])
    simp [skipSpaces1?, hblanks.1, hskip]

/-! ### First words -/

theorem IsWord.words_append_of_head? {word behind : Text} (h : IsWord word)
    (hbehind : ∀ c ∈ behind.head?, isWhite c = true) :
    words (word ++ behind) = word :: words behind := by
  cases behind with
  | nil => rw [List.append_nil, h.words_eq, words_nil]
  | cons c rest =>
    have hc : isWhite c = true := hbehind c rfl
    rw [h.words_append hc, ← List.nil_append (c :: rest), words_append_cons hc, words_nil,
      List.nil_append]

theorem isWhite_head?_trim (text : Text) : ∀ c ∈ (trim text).head?, isWhite c = false := by
  intro c hc
  obtain ⟨rest, hrest⟩ : trim text <+: trimStart text := trimEndWhere_begins isWhite _
  have hhead : c ∈ (trim text ++ rest).head? := by
    rw [List.head?_append, Option.mem_def.mp hc]
    rfl
  rw [hrest] at hhead
  exact forall_mem_head?_dropWhile isWhite text c hhead

theorem exists_append_of_words_eq_cons {text word : Text} {rest : List Text}
    (h : words text = word :: rest) :
    ∃ indent behind, text = indent ++ (word ++ behind) ∧ (∀ c ∈ indent, isWhite c = true) ∧
      IsWord word ∧ (∀ c ∈ behind.head?, isWhite c = true) ∧ words behind = rest := by
  have hindent : ∀ c ∈ text.takeWhile isWhite, isWhite c = true :=
    List.all_eq_true.mp List.all_takeWhile
  have hbody : words (text.dropWhile isWhite) = word :: rest := by
    rw [← h, ← words_append_white hindent, List.takeWhile_append_dropWhile]
  have hhead := forall_mem_head?_dropWhile isWhite text
  generalize hdrop : text.dropWhile isWhite = body at hbody hhead
  let first := body.takeWhile fun c => !isWhite c
  let behind := body.dropWhile fun c => !isWhite c
  have hsplit : first ++ behind = body := List.takeWhile_append_dropWhile
  have hbehind : ∀ c ∈ behind.head?, isWhite c = true := by
    intro c hc
    simpa using forall_mem_head?_dropWhile (fun c => !isWhite c) body c hc
  have hfirst : IsWord first := by
    constructor
    · cases body with
      | nil => simp at hbody
      | cons c others => simp [first, hhead c rfl]
    · intro c hc
      simpa using List.all_eq_true.mp List.all_takeWhile c hc
  rw [← hsplit, hfirst.words_append_of_head? hbehind] at hbody
  obtain ⟨hword, hrest⟩ := List.cons.inj hbody
  refine ⟨text.takeWhile isWhite, behind, ?_, hindent, hword ▸ hfirst, hbehind, hrest⟩
  rw [← hword, hsplit, ← hdrop, List.takeWhile_append_dropWhile]

theorem isInfix_of_mem_words {text word : Text} (h : word ∈ words text) : word <:+: text := by
  generalize hwords : words text = parts at h
  induction parts generalizing text with
  | nil => contradiction
  | cons first rest ih =>
    obtain ⟨indent, behind, rfl, -, -, -, hrest⟩ := exists_append_of_words_eq_cons hwords
    obtain rfl | h := List.mem_cons.mp h
    · exact ⟨indent, behind, by simp⟩
    · exact (ih hrest h).trans ⟨indent ++ first, [], by simp⟩

theorem trimmed_trim (text : Text) : Trimmed (trim text) := by
  refine ⟨isWhite_head?_trim text, ?_⟩
  rw [trim, trimEnd, trimEndWhere, List.getLast?_reverse]
  exact forall_mem_head?_dropWhile isWhite _

/-- All white space at the ends of a text goes, and nothing else. -/
theorem trim_eq_iff {text line : Text} : trim text = line ↔
    Trimmed line ∧ ∃ indent white, text = indent ++ (line ++ white) ∧
      (∀ c ∈ indent, isWhite c = true) ∧ ∀ c ∈ white, isWhite c = true := by
  constructor
  · rintro rfl
    exact ⟨trimmed_trim text, exists_eq_append_trim text⟩
  · rintro ⟨htrimmed, indent, white, rfl, hindent, hwhite⟩
    by_cases hne : line = []
    · subst hne
      have hall : ∀ c ∈ indent ++ white, isWhite c = true :=
        List.forall_mem_append.mpr ⟨hindent, hwhite⟩
      rw [List.nil_append, trim, trimStart, List.dropWhile_eq_nil_iff.mpr hall]
      rfl
    · exact htrimmed.trim_append hindent hwhite hne

/-! ### Characters of a text -/

theorem mem_trim_of_mem {text : Text} {c : Char} (hc : c ∈ text) (hwhite : isWhite c = false) :
    c ∈ trim text := by
  obtain ⟨indent, white, htext, hindent, hbehind⟩ := exists_eq_append_trim text
  rw [htext, List.mem_append, List.mem_append] at hc
  obtain hc | hc | hc := hc
  · simp [hindent c hc] at hwhite
  · exact hc
  · simp [hbehind c hc] at hwhite

theorem exists_mem_splitOnP {split : Char → Bool} {text : Text} {c : Char} (hc : c ∈ text)
    (hsplit : split c = false) : ∃ part ∈ text.splitOnP split, c ∈ part := by
  induction text with
  | nil => contradiction
  | cons first rest ih =>
    obtain ⟨part, parts, hparts⟩ := List.exists_cons_of_ne_nil (List.splitOnP_ne_nil split rest)
    rw [List.splitOnP_cons_eq_if_modifyHead]
    rw [hparts] at ih ⊢
    obtain rfl | hrest := List.mem_cons.mp hc
    · rw [if_neg (by simp [hsplit]), List.modifyHead_cons]
      exact ⟨_, List.mem_cons_self, List.mem_cons_self⟩
    · obtain ⟨found, hfound, hmem⟩ := ih hrest
      split
      · exact ⟨found, List.mem_cons_of_mem _ hfound, hmem⟩
      · rw [List.modifyHead_cons]
        obtain rfl | hfound := List.mem_cons.mp hfound
        · exact ⟨_, List.mem_cons_self, List.mem_cons_of_mem _ hmem⟩
        · exact ⟨found, List.mem_cons_of_mem _ hfound, hmem⟩

theorem exists_mem_words {text : Text} {c : Char} (hc : c ∈ text) (hwhite : isWhite c = false) :
    ∃ word ∈ words text, c ∈ word := by
  obtain ⟨word, hword, hmem⟩ := exists_mem_splitOnP hc hwhite
  exact ⟨word, List.mem_filter.mpr ⟨hword, by simp [List.ne_nil_of_mem hmem]⟩, hmem⟩

end DiagramSync.Text
