import DiagramSync.Proofs.Check.DataModel
import DiagramSync.Proofs.Check.Nesting

/-!
Blocks of entities in markup without a fault. The statements are read by lines: a line that ends
with a brace opens a block, a line that is just a brace closes it. The check for brackets counts
every brace outside of quotes, also one behind the comment of an attribute. Such a brace can close
a block for the one check and leave it open for the other; the markup passes, and what follows is
read as attributes.
-/

namespace DiagramSync

open Text

namespace DataModelCheck

/-! ### Blocks by lines -/

/-- The line opens a block where none is open. -/
def opensBlock (line : NumberedLine) : Bool :=
  endsWith ['\x7b'] (trim line.2)

/-- The line closes the block that is open. -/
def closesBlock (line : NumberedLine) : Bool :=
  trim line.2 = ['\x7d']

/-- Returns `true` if a block is open behind the lines. -/
def blockBehind (inBlock : Bool) (lines : List NumberedLine) : Bool :=
  lines.foldl (fun inBlock line => if inBlock then !closesBlock line else opensBlock line) inBlock

@[simp] theorem blockBehind_nil (inBlock : Bool) : blockBehind inBlock [] = inBlock := rfl

@[simp] theorem blockBehind_cons (inBlock : Bool) (line : NumberedLine)
    (rest : List NumberedLine) : blockBehind inBlock (line :: rest) =
      blockBehind (if inBlock then !closesBlock line else opensBlock line) rest := rfl

@[simp] theorem blockBehind_append (inBlock : Bool) (a b : List NumberedLine) :
    blockBehind inBlock (a ++ b) = blockBehind (blockBehind inBlock a) b :=
  List.foldl_append

/-- What is open behind some lines is all that the check of the statements behind them needs. -/
theorem lineFaults_append (inBlock : Bool) (a b : List NumberedLine) :
    lineFaults inBlock (a ++ b) = lineFaults inBlock a ++ lineFaults (blockBehind inBlock a) b := by
  induction a generalizing inBlock with
  | nil => rfl
  | cons line rest ih =>
    obtain ⟨number, text⟩ := line
    rw [List.cons_append, blockBehind_cons, lineFaults, lineFaults]
    cases inBlock with
    | true =>
      by_cases hcloses : trim text = ['\x7d'] <;> simp [hcloses, closesBlock, ih]
    | false =>
      cases hopens : stripSuffix? ['\x7b'] (trim text) <;>
        simp [opensBlock, endsWith, hopens, ih]

theorem lineFaults_singleton_eq_nil {inBlock : Bool} {a b : List NumberedLine}
    {line : NumberedLine} (h : lineFaults inBlock (a ++ line :: b) = []) :
    lineFaults (blockBehind inBlock a) [line] = [] := by
  rw [lineFaults_append, ← List.singleton_append, lineFaults_append] at h
  exact (List.append_eq_nil_iff.mp (List.append_eq_nil_iff.mp h).2).1

/-- Every line that opens a block has a later line that closes it. -/
def BlocksClosed (lines : List NumberedLine) : Prop :=
  ∀ before opener behind, lines = before ++ opener :: behind →
    blockBehind false before = false → opensBlock opener = true →
      ∃ line ∈ behind, closesBlock line = true

theorem blockBehind_eq_true_of_forall {lines : List NumberedLine}
    (h : ∀ line ∈ lines, closesBlock line = false) : blockBehind true lines = true := by
  induction lines with
  | nil => rfl
  | cons line rest ih =>
    rw [List.forall_mem_cons] at h
    rw [blockBehind_cons, if_pos rfl, h.1]
    exact ih h.2

/-- A block that is open at the end was opened by some line, and no later line closes one. -/
theorem exists_of_blockBehind_eq_true {lines : List NumberedLine}
    (h : blockBehind false lines = true) :
    ∃ before opener behind, lines = before ++ opener :: behind ∧
      blockBehind false before = false ∧ opensBlock opener = true ∧
      ∀ line ∈ behind, closesBlock line = false := by
  induction lines using List.reverseRecOn with
  | nil => contradiction
  | append_singleton lines last ih =>
    rw [blockBehind_append, blockBehind_cons, blockBehind_nil] at h
    cases hbehind : blockBehind false lines with
    | false =>
      rw [hbehind, if_neg (by simp)] at h
      exact ⟨lines, last, [], rfl, hbehind, h, List.forall_mem_nil _⟩
    | true =>
      rw [hbehind, if_pos rfl] at h
      obtain ⟨before, opener, behind, rfl, hbefore, hopens, hbehind⟩ := ih hbehind
      refine ⟨before, opener, behind ++ [last], by simp, hbefore, hopens, ?_⟩
      rw [List.forall_mem_append, List.forall_mem_singleton]
      exact ⟨hbehind, by simpa using h⟩

theorem blocksClosed_iff {lines : List NumberedLine} :
    BlocksClosed lines ↔ blockBehind false lines = false := by
  constructor
  · intro hclosed
    by_contra hopen
    obtain ⟨before, opener, behind, hlines, hbefore, hopens, hbehind⟩ :=
      exists_of_blockBehind_eq_true (Bool.eq_true_of_not_eq_false hopen)
    obtain ⟨line, hline, hcloses⟩ := hclosed before opener behind hlines hbefore hopens
    simp [hbehind line hline] at hcloses
  · rintro hend before opener behind rfl hbefore hopens
    by_contra hnone
    have hbehind : blockBehind true behind = true := by
      refine blockBehind_eq_true_of_forall fun line hline => ?_
      by_contra hcloses
      exact hnone ⟨line, hline, Bool.eq_true_of_not_eq_false hcloses⟩
    simp [hbefore, hopens, hbehind] at hend

/-! ### Braces of a block -/

/-- The brackets of lines, as the check for brackets sees them. -/
def bracketsOf (lines : List NumberedLine) : List Char :=
  lines.flatMap fun line => Delimiters.brackets (Delimiters.view .entityRelationship line.2)

theorem bracketsOf_cons (line : NumberedLine) (rest : List NumberedLine) :
    bracketsOf (line :: rest) = bracketsOf [line] ++ bracketsOf rest := by
  simp [bracketsOf]

theorem bracketsOf_append (a b : List NumberedLine) :
    bracketsOf (a ++ b) = bracketsOf a ++ bracketsOf b :=
  List.flatMap_append

/-- A brace on the line closes the block in which the lines `inner` stand in front: the brackets
from the beginning of the block up to it are nested. -/
def ClosesBrace (inner : List NumberedLine) (line : NumberedLine) : Prop :=
  ∃ front rest, bracketsOf [line] = front ++ '\x7d' :: rest ∧
    Nested Delimiters.Pairs (bracketsOf inner ++ front)

theorem exists_of_bracketsOf_eq {lines : List NumberedLine} {word rest : List Char} {c : Char}
    (h : bracketsOf lines = word ++ c :: rest) :
    ∃ inner line behind front rest', lines = inner ++ line :: behind ∧
      bracketsOf [line] = front ++ c :: rest' ∧ bracketsOf inner ++ front = word := by
  induction lines generalizing word with
  | nil => simp [bracketsOf] at h
  | cons first others ih =>
    rw [bracketsOf_cons] at h
    -- the bracket stands behind the first line
    have hbehind : ∀ word', bracketsOf others = word' ++ c :: rest →
        bracketsOf [first] ++ word' = word →
          ∃ inner line behind front rest', first :: others = inner ++ line :: behind ∧
            bracketsOf [line] = front ++ c :: rest' ∧ bracketsOf inner ++ front = word := by
      rintro word' hothers rfl
      obtain ⟨inner, line, behind, front, rest', rfl, hline, rfl⟩ := ih hothers
      refine ⟨first :: inner, line, behind, front, rest', rfl, hline, ?_⟩
      rw [bracketsOf_cons, List.append_assoc]
    obtain ⟨middle, hword, hothers⟩ | ⟨middle, hfirst, hmiddle⟩ := List.append_eq_append_iff.mp h
    · exact hbehind middle hothers hword.symm
    · cases middle with
      | nil => exact hbehind [] hmiddle.symm (by simpa using hfirst)
      | cons d middle =>
        obtain ⟨rfl, -⟩ := List.cons.inj hmiddle
        exact ⟨[], first, others, word, middle, rfl, hfirst, rfl⟩

/-! ### The line that opens a block -/

theorem isId_of_isName {name : Text} (h : isName name = true) : Label.IsId name := by
  obtain ⟨hne, hhead, htail⟩ := isWord_iff.mp h
  obtain ⟨c, rest, rfl⟩ := List.exists_cons_of_ne_nil hne
  refine ⟨hne, List.forall_mem_cons.mpr ⟨?_, htail⟩⟩
  obtain halpha | rfl : c.isAlpha = true ∨ c = '_' := by simpa using hhead
  · simp [Label.isIdChar, isAsciiAlphanum, Char.isAlphanum, halpha]
  · decide

theorem exists_of_opensBlock {number : Nat} {text : Text}
    (hopens : opensBlock (number, text) = true) (hfaults : lineFaults false [(number, text)] = []) :
    ∃ indent id gap white, text = indent ++ (id ++ (gap ++ '\x7b' :: white)) ∧ Label.IsId id ∧
      (∀ c ∈ indent, isWhite c = true) ∧ (∀ c ∈ gap, isWhite c = true) ∧
        ∀ c ∈ white, isWhite c = true := by
  obtain ⟨name, hname⟩ := Option.isSome_iff_exists.mp hopens
  dsimp only at hname
  simp only [lineFaults, hname, List.append_nil, Bool.false_eq_true, if_false] at hfaults
  have hid : Label.IsId (trim name) := by
    apply isId_of_isName
    by_contra hnot
    simp [nameFaults, hnot] at hfaults
  obtain ⟨before, white, htext, hbefore, hwhite⟩ := exists_eq_append_trim text
  obtain ⟨indent, gap, hnameEq, hindent, hgap⟩ := exists_eq_append_trim name
  refine ⟨before ++ indent, trim name, gap, white, ?_, hid,
    List.forall_mem_append.mpr ⟨hbefore, hindent⟩, hgap, hwhite⟩
  rw [stripSuffix?_eq_some_iff.mp hname] at htext
  conv_lhs => rw [htext, hnameEq]
  simp

theorem bracketsOf_opener {line : NumberedLine} (hopens : opensBlock line = true)
    (hfaults : lineFaults false [line] = []) : bracketsOf [line] = ['\x7b'] := by
  obtain ⟨number, text⟩ := line
  obtain ⟨indent, id, gap, white, rfl, hid, hindent, hgap, hwhite⟩ :=
    exists_of_opensBlock hopens hfaults
  have hword : IsWord id := isWord_of_isId hid
  have hbrace : IsWord ['\x7b'] := by decide
  -- there are no three words, so none of them is blanked
  have hview : Delimiters.view .entityRelationship (indent ++ (id ++ (gap ++ '\x7b' :: white))) =
      indent ++ (id ++ (gap ++ '\x7b' :: white)) := by
    have hwords : words (indent ++ (id ++ (gap ++ '\x7b' :: white))) =
        words (id ++ (gap ++ ['\x7b'])) := by
      rw [words_append_white hindent, ← words_append_white_end hwhite (id ++ (gap ++ ['\x7b']))]
      simp
    rw [Delimiters.view, Delimiters.blankToken, hwords]
    cases gap with
    | nil =>
      have hjoined : IsWord (id ++ ['\x7b']) :=
        ⟨by simp, List.forall_mem_append.mpr ⟨hword.2, hbrace.2⟩⟩
      rw [List.nil_append, hjoined.words_eq]
    | cons c gap =>
      rw [List.forall_mem_cons] at hgap
      rw [List.cons_append, hword.words_append hgap.1, words_append_white hgap.2, hbrace.words_eq]
  have hblank : ∀ {part : Text}, (∀ c ∈ part, isWhite c = true) →
      part.filter Delimiters.isDelimiter = [] :=
    Delimiters.filter_eq_nil (by decide)
  have hdelimiters : (indent ++ (id ++ (gap ++ '\x7b' :: white))).filter Delimiters.isDelimiter =
      ['\x7b'] := by
    have hnone : id.filter Delimiters.isDelimiter = [] :=
      Delimiters.filter_eq_nil (by decide) hid.2
    have hlast : ('\x7b' :: white).filter Delimiters.isDelimiter = ['\x7b'] :=
      congrArg _ (hblank hwhite)
    simp only [List.filter_append, hblank hindent, hblank hgap, hnone, hlast, List.nil_append]
  rw [bracketsOf, List.flatMap_singleton, hview, Delimiters.brackets_eq,
    ← Delimiters.bracketsFrom_filter, hdelimiters]
  rfl

/-! ### The lines of attributes -/

theorem not_mem_of_isWord {inner : Char → Bool} {word : Text} (h : isWord inner word = true)
    {c : Char} (hhead : (c.isAlpha || c == '_') = false) (hinner : inner c = false) : c ∉ word := by
  obtain ⟨hne, hfirst, hrest⟩ := isWord_iff.mp h
  obtain ⟨first, rest, rfl⟩ := List.exists_cons_of_ne_nil hne
  intro hc
  obtain rfl | hc := List.mem_cons.mp hc
  · rw [hfirst c rfl] at hhead
    contradiction
  · rw [hrest c hc] at hinner
    contradiction

theorem not_mem_of_keyFaults_eq_nil {line : Nat} {keys : List Text}
    (h : keyFaults line keys = []) : ∀ key ∈ keys, '\x7d' ∉ key := by
  intro key hkey hbrace
  have hflat : '\x7d' ∈ keys.flatten := List.mem_flatten_of_mem hkey hbrace
  obtain ⟨mark, hmark, hmem⟩ : ∃ mark ∈ keys.flatten.splitOnP (· == ','), '\x7d' ∈ mark :=
    exists_mem_splitOnP hflat (by decide)
  have hkept : mark ∈ (keys.flatten.splitOnP (· == ',')).filter fun mark => !mark.isEmpty :=
    List.mem_filter.mpr ⟨hmark, by simp [List.ne_nil_of_mem hmem]⟩
  have hfault := List.flatMap_eq_nil_iff.mp h mark hkept
  split at hfault
  · rename_i hknown
    obtain ⟨known, hknown, hmark⟩ := List.any_eq_true.mp hknown
    have hnone : ∀ known ∈ keyMarks, '\x7d' ∉ known.toList := by decide
    rw [← beq_iff_eq.mp hmark] at hmem
    exact hnone known hknown hmem
  · contradiction

theorem not_mem_of_attributeFaults_eq_nil {line : Nat} {text : Text}
    (h : attributeFaults line text = []) (hquote : '"' ∉ text) : '\x7d' ∉ text := by
  have hdeclaration : declaration text = text :=
    List.takeWhile_eq_self_iff.mpr fun c hc => by
      rw [bne_iff_ne]
      rintro rfl
      exact hquote hc
  rw [attributeFaults, hdeclaration] at h
  intro hbrace
  obtain ⟨word, hword, hmem⟩ := exists_mem_words hbrace (by decide)
  split at h
  · rename_i type name keys hwords
    simp only [List.append_eq_nil_iff, ite_eq_left_iff, reduceCtorEq, imp_false, not_not] at h
    obtain ⟨⟨htype, hname⟩, hkeys⟩ := h
    simp only [hwords, List.mem_cons] at hword
    obtain rfl | rfl | hkey := hword
    · exact not_mem_of_isWord htype (by decide) (by decide) hmem
    · exact not_mem_of_isWord hname (by decide) (by decide) hmem
    · exact not_mem_of_keyFaults_eq_nil hkeys word hkey hmem
  · contradiction

/-- The check for brackets sees no other brackets than the line has. -/
theorem mem_of_mem_bracketsOf {line : NumberedLine} {c : Char} (h : c ∈ bracketsOf [line])
    (hspace : c ≠ ' ') : c ∈ line.2 := by
  obtain ⟨number, text⟩ := line
  rw [bracketsOf, List.flatMap_singleton] at h
  have hview := Delimiters.mem_of_mem_brackets h
  have hshows := Delimiters.shows_view .entityRelationship text
  revert hshows
  rw [Delimiters.Shows]
  split
  · rintro ⟨before, after, rfl, hseen, -⟩
    rw [hseen, List.mem_append, List.mem_cons] at hview
    obtain hbefore | rfl | hafter := hview
    · simp [hbefore]
    · contradiction
    · simp [hafter]
  · rintro hseen
    rwa [hseen] at hview

/-! ### Blocks of markup without a fault -/

/-- An attribute whose line closes the brace of the block it stands in. Behind it are the lines
`behind`. -/
def ClosedInside (lines : List NumberedLine) (line : NumberedLine) (behind : List NumberedLine) :
    Prop :=
  ∃ before opener inner, lines = before ++ opener :: (inner ++ line :: behind) ∧
    blockBehind false before = false ∧ opensBlock opener = true ∧
    (∀ other ∈ inner ++ [line], closesBlock other = false) ∧ ClosesBrace inner line

section Accepted

variable {body : List NumberedLine}

theorem quote_mem_of_closedInside (hfaults : lineFaults false body = []) {line : NumberedLine}
    {behind : List NumberedLine} (h : ClosedInside body line behind) : '"' ∈ line.2 := by
  obtain ⟨before, opener, inner, rfl, hbefore, hopens, hattributes, front, rest, hline, -⟩ := h
  rw [List.forall_mem_append, List.forall_mem_singleton] at hattributes
  have hinside : blockBehind false (before ++ opener :: inner) = true := by
    simp [hbefore, hopens, blockBehind_eq_true_of_forall hattributes.1]
  rw [← List.cons_append, ← List.append_assoc] at hfaults
  have hattribute := lineFaults_singleton_eq_nil hfaults
  obtain ⟨number, text⟩ := line
  have hcloses : ¬ trim text = ['\x7d'] := by simpa [closesBlock] using hattributes.2
  simp only [hinside, lineFaults, if_true, if_neg hcloses, List.append_nil] at hattribute
  have hbracket : '\x7d' ∈ bracketsOf [(number, text)] := by simp [hline]
  have hbrace : '\x7d' ∈ text := mem_of_mem_bracketsOf hbracket (by decide)
  by_contra hquote
  exact not_mem_of_attributeFaults_eq_nil hattribute (fun hmem => hquote (mem_of_mem_trim hmem))
    (mem_trim_of_mem hbrace (by decide))

/-- In markup without a fault that ends in a block, an attribute closes the brace of it. -/
theorem exists_closedInside (hdelimiters : Delimiters.check .entityRelationship body = [])
    (hfaults : lineFaults false body = []) (hopen : blockBehind false body = true) :
    ∃ line behind, ClosedInside body line behind ∧ ∀ later ∈ behind, closesBlock later = false := by
  obtain ⟨before, opener, behind, rfl, hbefore, hopens, hbehind⟩ :=
    exists_of_blockBehind_eq_true hopen
  have hopener : bracketsOf [opener] = ['\x7b'] := by
    have hline := lineFaults_singleton_eq_nil hfaults
    rw [hbefore] at hline
    exact bracketsOf_opener hopens hline
  have hnested := (Delimiters.check_eq_nil_iff.mp hdelimiters).2
  have hsigns : bracketsOf (before ++ opener :: behind) =
      bracketsOf before ++ '\x7b' :: bracketsOf behind := by
    rw [bracketsOf_append, bracketsOf_cons, hopener, List.singleton_append]
  rw [bracketsOf] at hsigns
  rw [hsigns] at hnested
  obtain ⟨word, closer, rest, hword, hpair, hinner⟩ :=
    hnested.exists_closer (Delimiters.not_pairs_of_isOpener (by decide))
  obtain rfl : closer = '\x7d' := by simpa [Delimiters.Pairs] using hpair
  obtain ⟨inner, line, behind, front, rest', rfl, hline, rfl⟩ := exists_of_bracketsOf_eq hword
  rw [List.forall_mem_append, List.forall_mem_cons] at hbehind
  refine ⟨line, behind, ⟨before, opener, inner, rfl, hbefore, hopens, ?_, front, rest', hline,
    hinner⟩, hbehind.2.2⟩
  rw [List.forall_mem_append, List.forall_mem_singleton]
  exact ⟨hbehind.1, hbehind.2.1⟩

theorem blocksClosed_iff_exists_later
    (hdelimiters : Delimiters.check .entityRelationship body = [])
    (hfaults : lineFaults false body = []) :
    BlocksClosed body ↔ ∀ line behind, ClosedInside body line behind →
      ∃ later ∈ behind, closesBlock later = true := by
  constructor
  · rintro hclosed line behind ⟨before, opener, inner, hlines, hbefore, hopens, hnone, -⟩
    obtain ⟨later, hmem, hcloses⟩ := hclosed before opener _ hlines hbefore hopens
    rw [← List.singleton_append, ← List.append_assoc, List.mem_append] at hmem
    obtain hmem | hmem := hmem
    · simp [hnone later hmem] at hcloses
    · exact ⟨later, hmem, hcloses⟩
  · intro hlater
    rw [blocksClosed_iff, ← Bool.not_eq_true]
    intro hopen
    obtain ⟨line, behind, hinside, hnone⟩ := exists_closedInside hdelimiters hfaults hopen
    obtain ⟨later, hmem, hcloses⟩ := hlater line behind hinside
    simp [hnone later hmem] at hcloses

/-- Nothing is read as an attribute between the brace that closes a block and the line that does
so. -/
def NoneBehindBrace (lines : List NumberedLine) : Prop :=
  ∀ line next behind, ClosedInside lines line (next :: behind) → closesBlock next = true

theorem blocksClosed_and_noneBehindBrace_iff
    (hdelimiters : Delimiters.check .entityRelationship body = [])
    (hfaults : lineFaults false body = []) :
    BlocksClosed body ∧ NoneBehindBrace body ↔ ∀ line behind, ClosedInside body line behind →
      ∃ next ∈ behind.head?, closesBlock next = true := by
  rw [blocksClosed_iff_exists_later hdelimiters hfaults]
  constructor
  · rintro ⟨hlater, hnext⟩ line behind hinside
    obtain ⟨later, hmem, -⟩ := hlater line behind hinside
    obtain ⟨next, rest, rfl⟩ := List.exists_cons_of_ne_nil (List.ne_nil_of_mem hmem)
    exact ⟨next, rfl, hnext line next rest hinside⟩
  · intro hnext
    refine ⟨fun line behind hinside => ?_, fun line next behind hinside => ?_⟩
    · obtain ⟨next, hmem, hcloses⟩ := hnext line behind hinside
      exact ⟨next, List.mem_of_mem_head? hmem, hcloses⟩
    · obtain ⟨next', hmem, hcloses⟩ := hnext line (next :: behind) hinside
      obtain rfl : next = next' := by simpa using hmem
      exact hcloses

end Accepted

end DataModelCheck

open DataModelCheck

theorem Markup.bodyFaults_tail_eq_nil {kind : Kind} {markup : Text}
    (h : Markup.faults kind markup = []) :
    Markup.bodyFaults kind (Markup.significantLines markup).tail = [] := by
  rw [Markup.faults] at h
  split at h
  · contradiction
  · rename_i hlines
    rw [hlines, List.tail_cons]
    dsimp only at h
    split at h
    · split at h
      · exact h
      · contradiction
    · contradiction

/-- The blocks of accepted markup are closed by lines of their own exactly if each of those that an
attribute closes is closed once more. The attribute does so behind its comment. -/
theorem Markup.blocksClosed_iff_closedInside {markup : String}
    (h : (Markup.check .entityRelationship markup).errors = []) :
    let body := (Markup.significantLines markup.toList).tail
    (∀ rest, DataModelCheck.check (body ++ rest) = lineFaults (blockBehind false body) rest) ∧
      (BlocksClosed body ↔ blockBehind false body = false) ∧
      (∀ line behind, ClosedInside body line behind → '"' ∈ line.2) ∧
      (BlocksClosed body ↔ ∀ line behind, ClosedInside body line behind →
        ∃ later ∈ behind, closesBlock later = true) ∧
      (BlocksClosed body ∧ NoneBehindBrace body ↔ ∀ line behind, ClosedInside body line behind →
        ∃ next ∈ behind.head?, closesBlock next = true) := by
  intro body
  have hbody := Markup.bodyFaults_tail_eq_nil (List.map_eq_nil_iff.mp h)
  obtain ⟨hdelimiters, hstatements⟩ := List.append_eq_nil_iff.mp hbody
  have hfaults : lineFaults false body = [] := hstatements
  refine ⟨fun rest => ?_, blocksClosed_iff, fun _ _ => quote_mem_of_closedInside hfaults,
    blocksClosed_iff_exists_later hdelimiters hfaults,
    blocksClosed_and_noneBehindBrace_iff hdelimiters hfaults⟩
  rw [DataModelCheck.check, lineFaults_append, hfaults, List.nil_append]

/-- The comment of the attribute is followed by the brace that closes the block and by another one,
for which the line below stands. -/
theorem Markup.blocksClosed_iff_closedInside_reopened :
    let markup := "erDiagram\nA \x7b\nint x \"c\" \x7d \x7b\n\x7d\n"
    let body := (Markup.significantLines markup.toList).tail
    (Markup.check .entityRelationship markup).errors = [] ∧
      ClosedInside body (3, "int x \"c\" \x7d \x7b".toList) [(4, ['\x7d'])] ∧
      BlocksClosed body ∧ ∃ later ∈ [(4, ['\x7d'])], closesBlock later = true := by
  intro markup body
  have h : (Markup.check .entityRelationship markup).errors = [] := by decide
  have hinside : ClosedInside body (3, "int x \"c\" \x7d \x7b".toList) [(4, ['\x7d'])] :=
    ⟨[], (2, "A \x7b".toList), [], by decide, rfl, by decide, by decide, [], ['\x7b'], by decide,
      .nil⟩
  obtain ⟨-, hends, -, hlater, -⟩ := Markup.blocksClosed_iff_closedInside h
  have hclosed := hends.mpr (by decide)
  exact ⟨h, hinside, hclosed, hlater.mp hclosed _ _ hinside⟩

/-- Behind the comment of an attribute a brace leaves the block open, and what is no statement is
read as an attribute. -/
theorem Markup.not_blocksClosed_of_brace_in_attribute :
    let markup := "erDiagram\nA \x7b\nint x \"c\" \x7d\nlonely word\n"
    let body := (Markup.significantLines markup.toList).tail
    (Markup.check .entityRelationship markup).errors = [] ∧ ¬ BlocksClosed body ∧
      statementFaults 4 "lonely word".toList = [.unknownStatement 4 "lonely word"] := by
  intro markup body
  refine ⟨by decide, ?_, by decide⟩
  rw [blocksClosed_iff]
  decide

end DiagramSync
