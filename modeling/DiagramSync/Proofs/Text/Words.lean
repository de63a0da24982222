import DiagramSync.Proofs.Diagram.Label
import DiagramSync.Proofs.Text.Pieces

/-!
The lines and words of a text that is put together from them.
-/

namespace DiagramSync

open Text

/-! ### Lines -/

theorem Text.dropReturn_of_unbroken {line : Text} (h : Unbroken line) : dropReturn line = line := by
  obtain hreturn | ⟨hkept, -⟩ := dropReturn_cases line
  · exact absurd rfl (h '\r' (by rw [hreturn]; simp)).2
  · exact hkept

theorem Line.content_of_unbroken {line : Text} (h : Unbroken line) :
    content (line ++ ['\n']) = line := by
  rw [content_append_feed, dropReturn_of_unbroken h]

namespace Text

theorem lines_flatMap_feed {lines : List Text} (h : ∀ line ∈ lines, Unbroken line) :
    Text.lines (lines.flatMap fun line => line ++ ['\n']) = lines := by
  have hpieces : pieces (lines.flatMap fun line => line ++ ['\n']) =
      lines.map fun line => line ++ ['\n'] := by
    simpa [pieces] using pieces_lines (fun line hline => (h line hline).feed_not_mem) []
  have hline : ∀ line : Text, stripSuffix? ['\n'] (line ++ ['\n']) = some line :=
    fun line => stripSuffix?_eq_some_iff.mpr rfl
  rw [Text.lines, hpieces, List.map_map]
  conv_rhs => rw [← List.map_id lines]
  apply List.map_congr_left
  intro line hmem
  simp only [Function.comp_apply, hline, dropReturn_of_unbroken (h line hmem), id]

/-! ### White space around a text -/

/-- There is no white space at either end of the text. -/
def Trimmed (text : Text) : Prop :=
  (∀ c ∈ text.head?, isWhite c = false) ∧ ∀ c ∈ text.getLast?, isWhite c = false

instance (text : Text) : Decidable (Trimmed text) :=
  inferInstanceAs (Decidable (_ ∧ _))

theorem trimStart_suffix (text : Text) : trimStart text <:+ text :=
  List.dropWhile_suffix isWhite

theorem trimStart_append {indent : Text} (hindent : ∀ c ∈ indent, isWhite c = true)
    {text : Text} (h : ∀ c ∈ text.head?, isWhite c = false) :
    trimStart (indent ++ text) = text := by
  rw [trimStart, List.dropWhile_append_of_pos hindent]
  cases text with
  | nil => rfl
  | cons c rest => exact List.dropWhile_cons_of_neg (by simpa using h)

theorem trimEnd_append {text : Text} (h : ∀ c ∈ text.getLast?, isWhite c = false)
    {white : Text} (hwhite : ∀ c ∈ white, isWhite c = true) : trimEnd (text ++ white) = text := by
  have hhead : ∀ c ∈ text.reverse.head?, isWhite c = false := by
    rwa [List.head?_reverse]
  have hreversed := trimStart_append (fun c hc => hwhite c (List.mem_reverse.mp hc)) hhead
  rw [trimStart] at hreversed
  rw [trimEnd, trimEndWhere, List.reverse_append, hreversed, List.reverse_reverse]

theorem Trimmed.trim_append {text : Text} (h : Trimmed text) {indent white : Text}
    (hindent : ∀ c ∈ indent, isWhite c = true) (hwhite : ∀ c ∈ white, isWhite c = true)
    (hne : text ≠ []) : trim (indent ++ (text ++ white)) = text := by
  have hhead : ∀ c ∈ (text ++ white).head?, isWhite c = false := by
    rw [List.head?_append_of_ne_nil _ hne]
    exact h.1
  rw [trim, trimStart_append hindent hhead, trimEnd_append h.2 hwhite]

theorem exists_trim_append {indent : Text} (hindent : ∀ c ∈ indent, isWhite c = true) {c : Char}
    (hc : isWhite c = false) (rest : Text) : ∃ rest', trim (indent ++ c :: rest) = c :: rest' := by
  have hstart : trimStart (indent ++ c :: rest) = c :: rest :=
    trimStart_append hindent (by simpa using hc)
  rw [trim, hstart, trimEnd, trimEndWhere, List.reverse_cons, List.dropWhile_append]
  split
  · exact ⟨[], by simp [hc]⟩
  · exact ⟨(rest.reverse.dropWhile isWhite).reverse, by simp⟩

theorem exists_eq_append_trim (text : Text) : ∃ indent white, text = indent ++ (trim text ++ white) ∧
    (∀ c ∈ indent, isWhite c = true) ∧ ∀ c ∈ white, isWhite c = true := by
  refine ⟨text.takeWhile isWhite, ((trimStart text).reverse.takeWhile isWhite).reverse, ?_,
    List.all_eq_true.mp List.all_takeWhile,
    fun c hc => List.all_eq_true.mp List.all_takeWhile c (List.mem_reverse.mp hc)⟩
  rw [trim, trimEnd, trimEndWhere, ← List.reverse_append, List.takeWhile_append_dropWhile,
    List.reverse_reverse, trimStart, List.takeWhile_append_dropWhile]

/-! ### Words -/

/-- The text is not empty and free of white space. -/
def IsWord (text : Text) : Prop :=
  text ≠ [] ∧ ∀ c ∈ text, isWhite c = false

instance (text : Text) : Decidable (IsWord text) :=
  inferInstanceAs (Decidable (_ ∧ _))

theorem isWord_of_isId {id : Text} (h : Label.IsId id) : IsWord id :=
  ⟨h.1, fun c hc => Label.isWhite_of_isIdChar (h.2 c hc)⟩

theorem IsWord.trim_append {word : Text} (h : IsWord word) {indent white : Text}
    (hindent : ∀ c ∈ indent, isWhite c = true) (hwhite : ∀ c ∈ white, isWhite c = true) :
    trim (indent ++ (word ++ white)) = word :=
  Trimmed.trim_append ⟨fun c hc => h.2 c (List.mem_of_mem_head? hc),
    fun c hc => h.2 c (List.mem_of_mem_getLast? hc)⟩ hindent hwhite h.1

theorem IsWord.trim_eq {word : Text} (h : IsWord word) : trim word = word := by
  have htrim := h.trim_append (List.forall_mem_nil _) (List.forall_mem_nil _)
  rwa [List.nil_append, List.append_nil] at htrim

/-- Nothing but the indentation goes where a text begins and ends with words. -/
theorem trim_between {indent first last : Text} (hindent : ∀ c ∈ indent, isWhite c = true)
    (hfirst : IsWord first) (middle : Text) (hlast : IsWord last) :
    trim (indent ++ (first ++ (middle ++ last))) = first ++ (middle ++ last) := by
  have htrimmed : Trimmed (first ++ (middle ++ last)) := by
    constructor
    · rw [List.head?_append_of_ne_nil _ hfirst.1]
      exact fun c hc => hfirst.2 c (List.mem_of_mem_head? hc)
    · rw [← List.append_assoc, List.getLast?_append_of_ne_nil _ hlast.1]
      exact fun c hc => hlast.2 c (List.mem_of_mem_getLast? hc)
  have hne : first ++ (middle ++ last) ≠ [] := by simp [hfirst.1]
  have htrim := htrimmed.trim_append hindent (List.forall_mem_nil _) hne
  rwa [List.append_nil] at htrim

@[simp] theorem words_nil : words [] = [] := rfl

theorem words_append_cons {c : Char} (hc : isWhite c = true) (a b : Text) :
    words (a ++ c :: b) = words a ++ words b := by
  rw [words, List.splitOnP_append_cons a b hc, List.filter_append]
  rfl

theorem words_append_white {indent : Text} (hindent : ∀ c ∈ indent, isWhite c = true)
    (text : Text) : words (indent ++ text) = words text := by
  induction indent with
  | nil => rfl
  | cons c rest ih =>
    rw [List.forall_mem_cons] at hindent
    exact (words_append_cons hindent.1 [] (rest ++ text)).trans (ih hindent.2)

theorem IsWord.words_eq {word : Text} (h : IsWord word) : words word = [word] := by
  rw [words, List.splitOnP_eq_singleton h.2, List.filter_cons_of_pos (by simp [h.1])]
  rfl

theorem IsWord.words_append {word : Text} (h : IsWord word) {c : Char} (hc : isWhite c = true)
    (text : Text) : words (word ++ c :: text) = word :: words text := by
  rw [words_append_cons hc, h.words_eq, List.singleton_append]

theorem words_append_white_end {white : Text} (hwhite : ∀ c ∈ white, isWhite c = true)
    (text : Text) : words (text ++ white) = words text := by
  cases white with
  | nil => rw [List.append_nil]
  | cons c rest =>
    rw [List.forall_mem_cons] at hwhite
    have hrest : words (rest ++ []) = words [] := words_append_white hwhite.2 []
    rw [List.append_nil] at hrest
    rw [words_append_cons hwhite.1, hrest, words_nil, List.append_nil]

theorem words_trim (text : Text) : words (trim text) = words text := by
  obtain ⟨indent, white, htext, hindent, hwhite⟩ := exists_eq_append_trim text
  conv_rhs => rw [htext]
  rw [words_append_white hindent, words_append_white_end hwhite]

theorem exists_words_cons {c : Char} (hc : isWhite c = false) (text : Text) :
    ∃ word rest, words (c :: text) = (c :: word) :: rest := by
  obtain ⟨word, parts, hparts⟩ := List.exists_cons_of_ne_nil (List.splitOnP_ne_nil isWhite text)
  refine ⟨word, parts.filter fun word => !word.isEmpty, ?_⟩
  rw [words, List.splitOnP_cons_eq_if_modifyHead, hparts, if_neg (by simp [hc]),
    List.modifyHead_cons, List.filter_cons_of_pos (by simp)]

/-! ### Searching -/

theorem stripPrefix?_suffix {pattern text rest : Text} (h : stripPrefix? pattern text = some rest) :
    rest <:+ text := by
  rw [stripPrefix?_eq_some_iff.mp h]
  exact List.suffix_append pattern rest

theorem eq_append_of_splitOnce?_eq_some {pattern text before after : Text}
    (h : splitOnce? pattern text = some (before, after)) : text = before ++ pattern ++ after := by
  induction text generalizing before with
  | nil =>
    rw [splitOnce?] at h
    split at h
    · simp_all
    · contradiction
  | cons c rest ih =>
    rw [splitOnce?] at h
    split at h
    · rename_i hstrip
      obtain ⟨rfl, rfl⟩ := Prod.mk.inj (Option.some.inj h)
      exact stripPrefix?_eq_some_iff.mp hstrip
    · obtain ⟨⟨front, after'⟩, hfound, hpair⟩ := Option.map_eq_some_iff.mp h
      obtain ⟨rfl, rfl⟩ := Prod.mk.inj hpair
      rw [ih hfound]
      rfl

theorem splitOnce?_append {p : Char} {pattern before : Text} (h : p ∉ before) (after : Text) :
    splitOnce? (p :: pattern) (before ++ (p :: pattern) ++ after) = some (before, after) := by
  induction before with
  | nil =>
    have hstrip := stripPrefix?_append (p :: pattern) after
    rw [List.cons_append] at hstrip
    rw [List.nil_append, List.cons_append, splitOnce?, hstrip]
  | cons c rest ih =>
    obtain ⟨hc, hrest⟩ : p ≠ c ∧ p ∉ rest := by simpa using h
    rw [List.cons_append, List.cons_append, splitOnce?, stripPrefix?, if_neg hc]
    rw [ih hrest]
    rfl

theorem splitOnce?_of_not_mem {p : Char} {pattern text : Text} (h : p ∉ text) :
    splitOnce? (p :: pattern) text = none := by
  rw [Option.eq_none_iff_forall_not_mem]
  rintro ⟨before, after⟩ hfound
  apply h
  simp [eq_append_of_splitOnce?_eq_some hfound]

theorem replaceAll_append {p : Char} {pattern replacement before : Text} (h : p ∉ before)
    (after : Text) : replaceAll (p :: pattern) replacement (before ++ after) =
      before ++ replaceAll (p :: pattern) replacement after := by
  induction before with
  | nil => rfl
  | cons c rest ih =>
    obtain ⟨hc, hrest⟩ : p ≠ c ∧ p ∉ rest := by simpa using h
    have hbegins : (p :: pattern).isPrefixOf (c :: (rest ++ after)) = false := by
      simp [List.isPrefixOf, hc]
    rw [List.cons_append, replaceAll, if_neg (by simp [hbegins]), ih hrest]
    rfl

theorem replaceAll_of_not_mem {p : Char} {pattern replacement text : Text} (h : p ∉ text) :
    replaceAll (p :: pattern) replacement text = text := by
  have happend : replaceAll (p :: pattern) replacement (text ++ []) = _ := replaceAll_append h []
  rwa [replaceAll, List.append_nil] at happend

end Text
end DiagramSync
