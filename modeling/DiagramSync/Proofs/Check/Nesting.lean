import DiagramSync.Proofs.Check.Delimiters
import DiagramSync.Proofs.Text.Search

/-!
Words of signs that open and close. The checks for brackets and for groups read such a word with a
stack, line by line, and stop at the first sign that does not fit. They find no fault exactly if
the whole word is nested, which says nothing of stacks or lines.
-/

namespace DiagramSync

open Text

/-! ### Nested words -/

section Nesting

variable {Sign : Type}

/-- Each sign that opens is closed by its own, with a nested word in between. -/
inductive Nested (closes : Sign → Sign → Prop) : List Sign → Prop where
  | nil : Nested closes []
  | pair {opener closer : Sign} {inner behind : List Sign} : closes opener closer →
      Nested closes inner → Nested closes behind →
        Nested closes (opener :: (inner ++ closer :: behind))

/-- The word closes all of the open signs, the last one first, with nested words in between. -/
inductive Closing (closes : Sign → Sign → Prop) : (opened word : List Sign) → Prop where
  | nested {word : List Sign} : Nested closes word → Closing closes [] word
  | close {opener closer : Sign} {opened inner rest : List Sign} : Nested closes inner →
      closes opener closer → Closing closes opened rest →
        Closing closes (opener :: opened) (inner ++ closer :: rest)

variable {closes : Sign → Sign → Prop} {opened word : List Sign} {sign : Sign}

/-- In a nested word an opening sign is followed by a nested word and what closes it. -/
theorem Nested.exists_closer {before : List Sign} (h : Nested closes (before ++ sign :: word))
    (hcloses : ∀ opener, ¬ closes opener sign) :
    ∃ inner closer rest, word = inner ++ closer :: rest ∧ closes sign closer ∧
      Nested closes inner := by
  generalize hsigns : before ++ sign :: word = signs at h
  induction h generalizing before word with
  | nil => simp at hsigns
  | @pair opener closer inner behind hpair hinner _ ihinner ihbehind =>
    cases before with
    | nil =>
      obtain ⟨rfl, rfl⟩ := List.cons.inj hsigns
      exact ⟨inner, closer, behind, rfl, hpair, hinner⟩
    | cons first before =>
      obtain ⟨-, hrest⟩ := List.cons.inj hsigns
      obtain ⟨middle, rfl, hmiddle⟩ | ⟨middle, rfl, hmiddle⟩ := List.append_eq_append_iff.mp hrest
      · cases middle with
        | nil =>
          obtain ⟨rfl, -⟩ := List.cons.inj hmiddle
          exact absurd hpair (hcloses _)
        | cons next middle =>
          obtain ⟨rfl, rfl⟩ := List.cons.inj hmiddle
          obtain ⟨inner, closer', rest, rfl, hpair', hinner'⟩ := ihinner rfl
          exact ⟨inner, closer', rest ++ closer :: behind, by simp, hpair', hinner'⟩
      · cases middle with
        | nil =>
          obtain ⟨rfl, -⟩ := List.cons.inj hmiddle
          exact absurd hpair (hcloses _)
        | cons next middle =>
          obtain ⟨rfl, hbehind⟩ := List.cons.inj hmiddle
          exact ihbehind hbehind.symm

theorem closing_nil_iff : Closing closes [] word ↔ Nested closes word := by
  constructor
  · intro h
    cases h with
    | nested hnested => exact hnested
  · exact .nested

theorem closing_end_iff : Closing closes opened [] ↔ opened = [] := by
  constructor
  · intro h
    generalize hsigns : ([] : List Sign) = signs at h
    cases h with
    | nested => exact hsigns
    | close => simp at hsigns
  · rintro rfl
    exact .nested .nil

theorem closing_opener_iff (hcloses : ∀ opener, ¬ closes opener sign) :
    Closing closes opened (sign :: word) ↔ Closing closes (sign :: opened) word := by
  constructor
  · intro h
    generalize hsigns : sign :: word = signs at h
    cases h with
    | nested hnested =>
      cases hnested with
      | nil => contradiction
      | pair hpair hinner hbehind =>
        obtain ⟨rfl, rfl⟩ := List.cons.inj hsigns
        exact .close hinner hpair (.nested hbehind)
    | close hinner hpair hrest =>
      cases hinner with
      | nil =>
        obtain ⟨rfl, -⟩ := List.cons.inj hsigns
        exact absurd hpair (hcloses _)
      | pair hpair' hinner' hbehind =>
        rw [List.cons_append, List.append_assoc] at hsigns
        obtain ⟨rfl, rfl⟩ := List.cons.inj hsigns
        exact .close hinner' hpair' (.close hbehind hpair hrest)
  · intro h
    generalize hsigns : sign :: opened = signs at h
    cases h with
    | nested => contradiction
    | close hinner hpair hrest =>
      obtain ⟨rfl, rfl⟩ := List.cons.inj hsigns
      cases hrest with
      | nested hbehind => exact .nested (.pair hpair hinner hbehind)
      | close hbehind hpair' hrest' =>
        have hclose := Closing.close (.pair hpair hinner hbehind) hpair' hrest'
        rwa [List.cons_append, List.append_assoc] at hclose

theorem closing_closer_iff (hopens : ∀ closer, ¬ closes sign closer) :
    Closing closes opened (sign :: word) ↔
      ∃ opener outer, opened = opener :: outer ∧ closes opener sign ∧
        Closing closes outer word := by
  constructor
  · intro h
    generalize hsigns : sign :: word = signs at h
    cases h with
    | nested hnested =>
      cases hnested with
      | nil => contradiction
      | pair hpair =>
        obtain ⟨rfl, -⟩ := List.cons.inj hsigns
        exact absurd hpair (hopens _)
    | close hinner hpair hrest =>
      cases hinner with
      | nil =>
        obtain ⟨rfl, rfl⟩ := List.cons.inj hsigns
        exact ⟨_, _, rfl, hpair, hrest⟩
      | pair hpair' =>
        obtain ⟨rfl, -⟩ := List.cons.inj hsigns
        exact absurd hpair' (hopens _)
  · rintro ⟨opener, outer, rfl, hpair, hrest⟩
    exact .close .nil hpair hrest

end Nesting

/-! ### Brackets -/

namespace Delimiters

/-- The brackets that go together. -/
def Pairs (opener closer : Char) : Prop :=
  (opener, closer) ∈ [('(', ')'), ('[', ']'), ('\x7b', '\x7d')]

instance (opener closer : Char) : Decidable (Pairs opener closer) :=
  inferInstanceAs (Decidable (_ ∈ _))

def isBracket (c : Char) : Bool :=
  isOpener c || isCloser c

/-- The brackets of a line outside of quotes, which is where an even number of them stand in
front. -/
def brackets (text : Text) : Text :=
  (text.zipIdx.filter fun (c, index) =>
    isBracket c ∧ Even ((text.take index).count '"')).map Prod.fst

/-- The word between two entities, if the line is a relationship by the look of it. -/
def lineToken? (kind : Kind) (text : Text) : Option Text :=
  match kind with
  | .journey => none
  | .entityRelationship =>
    match words text with
    | _ :: token :: _ :: _ =>
      if "--".toList <:+: token ∨ "..".toList <:+: token then some token else none
    | _ => none

/-- There is a space in `seen` where `part` occurs in the text for the first time. -/
def Blanks (part text seen : Text) : Prop :=
  ∃ before after, text = before ++ part ++ after ∧ seen = before ++ ' ' :: after ∧
    ∀ before' after', text = before' ++ part ++ after' → before.length ≤ before'.length

/-- The line as the check for brackets sees it: the word between two entities is blanked, since
its braces are none. -/
def Shows (kind : Kind) (text seen : Text) : Prop :=
  match lineToken? kind text with
  | some token => Blanks token text seen
  | none => seen = text

theorem not_pairs_of_isOpener {c : Char} (h : isOpener c = true) (opener : Char) :
    ¬ Pairs opener c := by
  simp only [isOpener, Bool.or_eq_true, beq_iff_eq, or_assoc] at h
  obtain rfl | rfl | rfl := h <;> simp [Pairs]

theorem not_pairs_of_isCloser {c : Char} (h : isCloser c = true) (closer : Char) :
    ¬ Pairs c closer := by
  simp only [isCloser, Bool.or_eq_true, beq_iff_eq, or_assoc] at h
  obtain rfl | rfl | rfl := h <;> simp [Pairs]

theorem closerOf_eq_iff {opener c : Char} (hopener : isOpener opener = true) :
    closerOf opener = c ↔ Pairs opener c := by
  simp only [isOpener, Bool.or_eq_true, beq_iff_eq, or_assoc] at hopener
  obtain rfl | rfl | rfl := hopener <;> simp [Pairs, closerOf, eq_comm]

/-! ### Brackets along a line -/

/-- The brackets outside of quotes, found from left to right. -/
def bracketsFrom (quoted : Bool) : Text → Text
  | [] => []
  | c :: rest =>
    if c = '"' then bracketsFrom (!quoted) rest
    else if quoted = false ∧ isBracket c = true then c :: bracketsFrom quoted rest
    else bracketsFrom quoted rest

theorem filter_even_count (quoted : Bool) (text : Text) :
    (text.zipIdx.filter fun (c, index) =>
        isBracket c ∧ (Even ((text.take index).count '"') ↔ quoted = false)).map Prod.fst =
      bracketsFrom quoted text := by
  induction text generalizing quoted with
  | nil => rfl
  | cons c rest ih =>
    rw [bracketsFrom, List.zipIdx_cons, List.zipIdx_succ, List.filter_cons, List.filter_map]
    simp only [Function.comp_def, List.take_zero, List.count_nil, Even.zero, true_iff,
      List.take_succ_cons, List.count_cons]
    by_cases hquote : c = '"'
    · subst hquote
      have hbracket : isBracket '"' = false := by decide
      have hflip : ∀ n : Nat, (Even (n + 1) ↔ quoted = false) ↔ (Even n ↔ (!quoted) = false) := by
        intro n
        rw [Nat.even_add_one]
        cases quoted <;> simp
      simp [hbracket, hflip, ← ih, Function.comp_def]
    · by_cases hbracket : quoted = false ∧ isBracket c = true
      · simp [hquote, hbracket, ← ih, Function.comp_def]
      · have hnot : ¬ (isBracket c = true ∧ quoted = false) := by rwa [and_comm]
        simp [hquote, hbracket, hnot, ← ih, Function.comp_def]

theorem brackets_eq (text : Text) : brackets text = bracketsFrom false text := by
  rw [← filter_even_count]
  simp [brackets]

theorem bracketsFrom_filter (quoted : Bool) (text : Text) :
    bracketsFrom quoted (text.filter isDelimiter) = bracketsFrom quoted text := by
  induction text generalizing quoted with
  | nil => rfl
  | cons c rest ih =>
    cases hc : isDelimiter c with
    | false =>
      have hnone : c ≠ '"' ∧ isBracket c = false := by
        simpa [isDelimiter, isBracket, and_assoc] using hc
      rw [List.filter_cons_of_neg (by simp [hc]), bracketsFrom, if_neg hnone.1,
        if_neg (by simp [hnone.2]), ih]
    | true =>
      rw [List.filter_cons_of_pos hc]
      simp only [bracketsFrom, ih]

theorem mem_of_mem_brackets {text : Text} {c : Char} (h : c ∈ brackets text) : c ∈ text := by
  obtain ⟨⟨c, index⟩, hmem, rfl⟩ := List.mem_map.mp h
  exact List.fst_mem_of_mem_zipIdx (List.mem_of_mem_filter hmem)

/-! ### The scan -/

/-- The brackets that are open, without their lines. -/
def signs (opened : List Opener) : List Char :=
  opened.map Prod.fst

/-- What is open behind a line are opening brackets, and a quote is open there if there is an odd
number of them. -/
theorem of_scanChars_eq_ok {line : Nat} {opened opened' : List Opener} {quoted quoted' : Bool}
    {text : Text} (h : scanChars line opened quoted text = .ok (opened', quoted'))
    (hopened : ∀ opener ∈ signs opened, isOpener opener = true) :
    (quoted' = quoted ↔ Even (text.count '"')) ∧
      ∀ opener ∈ signs opened', isOpener opener = true := by
  fun_induction scanChars line opened quoted text with
  | case1 opened quoted =>
    cases h
    exact ⟨by simp, hopened⟩
  | case2 opened quoted c rest hquote ih =>
    obtain rfl : c = '"' := by simpa using hquote
    rw [List.count_cons_self, Nat.even_add_one, ← (ih h hopened).1]
    refine ⟨?_, (ih h hopened).2⟩
    cases quoted <;> cases quoted' <;> simp
  | case3 opened c rest hquote ih =>
    rw [List.count_cons_of_ne (by simpa using hquote)]
    exact ih h hopened
  | case4 opened quoted c rest hquote hquoted hopener ih =>
    rw [List.count_cons_of_ne (by simpa using hquote)]
    exact ih h (by simpa [signs, hopener] using hopened)
  | case5 quoted c rest hquote hquoted hopener hcloser opener openedAt outer hfits ih =>
    rw [List.count_cons_of_ne (by simpa using hquote)]
    exact ih h fun opener hmem => hopened opener (List.mem_cons_of_mem _ hmem)
  | case6 => contradiction
  | case7 => contradiction
  | case8 opened quoted c rest hquote hquoted hopener hcloser ih =>
    rw [List.count_cons_of_ne (by simpa using hquote)]
    exact ih h hopened

/-- The scan gets to the end of the text, and the word closes all that is open there. -/
def Passes (line : Nat) (opened : List Opener) (quoted : Bool) (text : Text) (word : List Char) :
    Prop :=
  ∃ opened' quoted', scanChars line opened quoted text = .ok (opened', quoted') ∧
    Closing Pairs (signs opened') word

theorem passes_congr {line : Nat} {opened opened' : List Opener} {quoted quoted' : Bool}
    {text text' : Text} (hscan : scanChars line opened quoted text =
      scanChars line opened' quoted' text') (word : List Char) :
    Passes line opened quoted text word ↔ Passes line opened' quoted' text' word := by
  rw [Passes, hscan, Passes]

theorem passes_closer {line : Nat} {opened : List Opener} {c : Char} (hquote : c ≠ '"')
    (hopener : isOpener c = false) (hcloser : isCloser c = true)
    (hopened : ∀ opener ∈ signs opened, isOpener opener = true) (text : Text) (word : List Char) :
    Passes line opened false (c :: text) word ↔
      ∃ opener openedAt outer, opened = (opener, openedAt) :: outer ∧ Pairs opener c ∧
        Passes line outer false text word := by
  cases opened with
  | nil => simp [Passes, scanChars, hquote, hopener, hcloser]
  | cons last outer =>
    obtain ⟨opener, openedAt⟩ := last
    have hlast : isOpener opener = true := hopened opener List.mem_cons_self
    by_cases hpair : Pairs opener c
    · have hfits := (closerOf_eq_iff hlast).mpr hpair
      have hscan : scanChars line ((opener, openedAt) :: outer) false (c :: text) =
          scanChars line outer false text := by
        simp [scanChars, hquote, hopener, hcloser, hfits]
      rw [passes_congr hscan]
      simp [hpair]
    · have hfits : closerOf opener ≠ c := fun h => hpair ((closerOf_eq_iff hlast).mp h)
      simp [Passes, scanChars, hquote, hopener, hcloser, hfits, hpair]

/-- The scan of a line passes if the brackets outside of quotes fit, and the rest of the word fits
behind it. -/
theorem closing_bracketsFrom_iff {opened : List Opener}
    (hopened : ∀ opener ∈ signs opened, isOpener opener = true) (line : Nat) (quoted : Bool)
    (text : Text) (word : List Char) :
    Closing Pairs (signs opened) (bracketsFrom quoted text ++ word) ↔
      Passes line opened quoted text word := by
  induction text generalizing opened quoted with
  | nil => simp [Passes, scanChars, bracketsFrom]
  | cons c rest ih =>
    by_cases hquote : c = '"'
    · subst hquote
      have hscan : scanChars line opened quoted ('"' :: rest) =
          scanChars line opened (!quoted) rest := rfl
      rw [bracketsFrom, if_pos rfl, ih hopened, passes_congr hscan]
    rw [bracketsFrom, if_neg hquote]
    cases quoted with
    | true =>
      have hscan : scanChars line opened true (c :: rest) = scanChars line opened true rest := by
        simp [scanChars, hquote]
      rw [if_neg (by simp), ih hopened, passes_congr hscan]
    | false =>
      cases hopener : isOpener c with
      | true =>
        have hscan : scanChars line opened false (c :: rest) =
            scanChars line ((c, line) :: opened) false rest := by
          simp [scanChars, hquote, hopener]
        have hopened' : ∀ opener ∈ signs ((c, line) :: opened), isOpener opener = true := by
          simpa [signs, hopener] using hopened
        rw [if_pos (by simp [isBracket, hopener]), List.cons_append,
          closing_opener_iff (not_pairs_of_isOpener hopener), passes_congr hscan, ← ih hopened']
        rfl
      | false =>
        cases hcloser : isCloser c with
        | true =>
          rw [if_pos (by simp [isBracket, hcloser]), List.cons_append,
            closing_closer_iff (not_pairs_of_isCloser hcloser),
            passes_closer hquote hopener hcloser hopened]
          constructor
          · rintro ⟨opener, outer, hsigns, hpair, hword⟩
            obtain ⟨⟨opener, openedAt⟩, outer, rfl, rfl, rfl⟩ := List.map_eq_cons_iff.mp hsigns
            have houter : ∀ opener ∈ signs outer, isOpener opener = true :=
              fun opener hmem => hopened opener (List.mem_cons_of_mem _ hmem)
            exact ⟨opener, openedAt, outer, rfl, hpair, (ih houter false).mp hword⟩
          · rintro ⟨opener, openedAt, outer, rfl, hpair, hpasses⟩
            have houter : ∀ opener ∈ signs outer, isOpener opener = true :=
              fun opener hmem => hopened opener (List.mem_cons_of_mem _ hmem)
            exact ⟨opener, signs outer, rfl, hpair, (ih houter false).mpr hpasses⟩
        | false =>
          have hscan := scanChars_cons_plain
            (by simp [isDelimiter, hquote, hopener, hcloser] : isDelimiter c = false)
            line opened false rest
          rw [if_neg (by simp [isBracket, hopener, hcloser]), ih hopened, passes_congr hscan]

theorem scanLines_eq_nil_iff {opened : List Opener} {lines : List NumberedLine}
    (hopened : ∀ opener ∈ signs opened, isOpener opener = true) :
    scanLines opened lines = [] ↔
      (∀ line ∈ lines, Even (line.2.count '"')) ∧
        Closing Pairs (signs opened) (lines.flatMap fun line => brackets line.2) := by
  induction lines generalizing opened with
  | nil =>
    rw [List.flatMap_nil, closing_end_iff, signs, List.map_eq_nil_iff, scanLines]
    cases hlast : opened.getLast? with
    | none => simpa using hlast
    | some last =>
      have hne : opened ≠ [] := by
        rintro rfl
        contradiction
      simp [hne]
  | cons first rest ih =>
    obtain ⟨line, text⟩ := first
    rw [List.forall_mem_cons, List.flatMap_cons, brackets_eq,
      closing_bracketsFrom_iff hopened line, scanLines, Passes]
    cases hscan : scanChars line opened false text with
    | error fault => simp
    | ok found =>
      obtain ⟨opened', quoted'⟩ := found
      obtain ⟨hquotes, hopened'⟩ := of_scanChars_eq_ok hscan hopened
      cases quoted' with
      | true => simp [← hquotes]
      | false => simp [← hquotes, ih hopened']

/-- The check finds no fault exactly if the brackets of all lines are nested. -/
theorem check_eq_nil_iff {kind : Kind} {lines : List NumberedLine} :
    check kind lines = [] ↔
      (∀ line ∈ lines, Even ((view kind line.2).count '"')) ∧
        Nested Pairs (lines.flatMap fun line => brackets (view kind line.2)) := by
  have hnone : ∀ opener ∈ signs [], isOpener opener = true :=
    fun opener hmem => absurd hmem List.not_mem_nil
  rw [check, scanLines_eq_nil_iff hnone, List.forall_mem_map, List.flatMap_map,
    ← closing_nil_iff]
  rfl

theorem blanks_replaceFirst {part text : Text} (h : part <:+: text) :
    Blanks part text (replaceFirst part [' '] text) := by
  rw [replaceFirst]
  cases hfound : splitOnce? part text with
  | none => exact absurd h (splitOnce?_eq_none_iff.mp hfound)
  | some found =>
    obtain ⟨before, after⟩ := found
    refine ⟨before, after, eq_append_of_splitOnce?_eq_some hfound, by simp, ?_⟩
    exact fun before' after' htext => length_le_of_splitOnce?_eq_some hfound htext

theorem shows_view (kind : Kind) (text : Text) : Shows kind text (view kind text) := by
  cases kind with
  | journey => rfl
  | entityRelationship =>
    simp only [Shows, lineToken?, view, blankToken, Bool.or_eq_true, contains_eq_true_iff]
    generalize hwords : words text = parts
    obtain _ | ⟨first, _ | ⟨token, _ | ⟨third, rest⟩⟩⟩ := parts
    · rfl
    · rfl
    · rfl
    · have htoken : token <:+: text := isInfix_of_mem_words (by simp [hwords])
      by_cases hdashes : "--".toList <:+: token ∨ "..".toList <:+: token
      · simpa only [if_pos hdashes] using blanks_replaceFirst htoken
      · simp only [if_neg hdashes]

end Delimiters

/-! ### Groups -/

/-- The lines between which a group of a flowchart stands. -/
inductive GroupMark where
  | opens
  | ends
  deriving Repr, DecidableEq

namespace GroupMark

def Pairs (opener closer : GroupMark) : Prop :=
  opener = .opens ∧ closer = .ends

def ofLine? (text : Text) : Option GroupMark :=
  if trim text = "end".toList then some .ends
  else if (words text).head? = some "subgraph".toList then some .opens
  else none

end GroupMark

namespace FlowchartCheck

/-- Returns `true` for the faults in the order of groups. -/
def concernsGroups : Fault → Bool
  | .strayEnd _ | .openGroups _ => true
  | _ => false

def Statement.groupMark? : Statement → Option GroupMark
  | .groupEnd => some .ends
  | .groupBegin _ => some .opens
  | .directive | .nodes _ => none

theorem isSome_groupTitle?_trim_iff {text : Text} :
    (groupTitle? (trim text)).isSome = true ↔ (words text).head? = some "subgraph".toList := by
  have hword : IsWord "subgraph".toList := by decide
  rw [← words_trim, groupTitle?]
  constructor
  · intro h
    split at h
    · rename_i hstrip
      rw [stripPrefix?_eq_some_iff.mp hstrip, List.append_nil, hword.words_eq]
      rfl
    · rename_i c rest hstrip
      rw [stripPrefix?_eq_some_iff.mp hstrip, hword.words_append (by simpa using h)]
      rfl
    · contradiction
  · intro h
    obtain ⟨rest, hwords⟩ := List.head?_eq_some_iff.mp h
    obtain ⟨indent, behind, htext, hindent, -, hbehind, -⟩ := exists_append_of_words_eq_cons hwords
    have hnone : indent = [] := by
      cases indent with
      | nil => rfl
      | cons c indent =>
        have hwhite := isWhite_head?_trim text c (by rw [htext]; rfl)
        simp [hindent c] at hwhite
    subst hnone
    rw [htext, List.nil_append, stripPrefix?_append]
    cases behind with
    | nil => rfl
    | cons c behind => simp [hbehind c rfl]

/-- The marks of groups are told apart as they are said to be. -/
theorem groupMark?_read (text : Text) :
    (Statement.read text).groupMark? = GroupMark.ofLine? text := by
  rw [Statement.read, GroupMark.ofLine?]
  split
  · rfl
  · simp only [← isSome_groupTitle?_trim_iff]
    cases groupTitle? (trim text) with
    | some title => rfl
    | none => cases isDirective (trim text) <;> rfl

theorem filter_nodeFaults (line : Nat) (reference : Text) :
    (nodeFaults line reference).filter concernsGroups = [] := by
  have hid : ∀ id, (idFaults line id).filter concernsGroups = [] := by
    intro id
    rw [idFaults]
    split
    · rfl
    · split <;> rfl
  rw [nodeFaults]
  split
  · split
    · exact hid _
    · rfl
  · exact hid _

theorem lineFaults_groups_eq_nil_iff {depth : Nat} {lines : List NumberedLine} :
    (lineFaults depth lines).filter concernsGroups = [] ↔
      Closing GroupMark.Pairs (List.replicate depth .opens)
        (lines.filterMap fun line => GroupMark.ofLine? line.2) := by
  induction lines generalizing depth with
  | nil =>
    rw [List.filterMap_nil, closing_end_iff, lineFaults]
    cases depth <;> simp [concernsGroups]
  | cons first rest ih =>
    obtain ⟨line, text⟩ := first
    rw [List.filterMap_cons, ← groupMark?_read]
    cases hread : Statement.read text with
    | groupEnd =>
      simp only [lineFaults, hread, Statement.groupMark?]
      rw [closing_closer_iff fun closer hpair => GroupMark.noConfusion hpair.1]
      cases depth with
      | zero => simp [concernsGroups]
      | succ depth =>
        rw [ih, List.replicate_succ]
        constructor
        · exact fun h => ⟨.opens, _, rfl, ⟨rfl, rfl⟩, h⟩
        · rintro ⟨opener, outer, hopened, -, h⟩
          obtain ⟨rfl, rfl⟩ := List.cons.inj hopened
          exact h
    | groupBegin title =>
      simp only [lineFaults, hread, Statement.groupMark?]
      rw [closing_opener_iff fun opener hpair => GroupMark.noConfusion hpair.2,
        List.filter_append, filter_nodeFaults, List.nil_append, ih, List.replicate_succ]
    | directive =>
      simp only [lineFaults, hread]
      exact ih
    | nodes references =>
      have hnodes : (references.flatMap (nodeFaults line)).filter concernsGroups = [] := by
        simp [List.filter_flatMap, filter_nodeFaults]
      simp only [lineFaults, hread]
      rw [List.filter_append, hnodes]
      exact ih

end FlowchartCheck

/-- The checks for brackets and groups are exact. -/
theorem Markup.delimiters_groups_iff_nested (kind : Kind) (lines : List NumberedLine) :
    (∀ line ∈ lines, Delimiters.Shows kind line.2 (Delimiters.view kind line.2)) ∧
      (Delimiters.check kind lines = [] ↔
        (∀ line ∈ lines, Even ((Delimiters.view kind line.2).count '"')) ∧
          Nested Delimiters.Pairs
            (lines.flatMap fun line => Delimiters.brackets (Delimiters.view kind line.2))) ∧
      ((FlowchartCheck.check lines).filter FlowchartCheck.concernsGroups = [] ↔
        Nested GroupMark.Pairs (lines.filterMap fun line => GroupMark.ofLine? line.2)) := by
  refine ⟨fun line _ => Delimiters.shows_view kind line.2, Delimiters.check_eq_nil_iff, ?_⟩
  rw [FlowchartCheck.check, FlowchartCheck.lineFaults_groups_eq_nil_iff, ← closing_nil_iff]
  rfl

end DiagramSync
