import DiagramSync.Document.Line
import Mathlib.Data.List.Basic

/-!
Cutting a text into pieces commutes with joining, as long as the first text is made of
whole lines. What a piece says does not depend on the line feed behind it.
-/

namespace DiagramSync.Text

/-! ### Sizes -/

@[simp] theorem size_eq_zero {text : Text} : size text = 0 ↔ text = [] := by
  cases text with
  | nil => simp
  | cons c cs =>
    have hpos : 0 < c.utf8Size := c.utf8Size_pos
    simp only [size_cons, reduceCtorEq, iff_false]
    omega

theorem size_le_of_suffix {rest text : Text} (h : rest <:+ text) : size rest ≤ size text := by
  obtain ⟨front, rfl⟩ := h
  rw [size_append]
  omega

/-- Of two beginnings of a text the shorter one begins the longer one. -/
theorem append_eq_append_of_size_le {a b a' b' : Text} (happend : a ++ b = a' ++ b')
    (hsize : size a ≤ size a') : ∃ middle, a' = a ++ middle ∧ b = middle ++ b' := by
  obtain ⟨middle, hmiddle, hrest⟩ | ⟨middle, hmiddle, hrest⟩ :=
    List.append_eq_append_iff.mp happend
  · exact ⟨middle, hmiddle, hrest⟩
  · have hnil : middle = [] := by
      rw [← size_eq_zero]
      rw [hmiddle, size_append] at hsize
      omega
    subst hnil
    exact ⟨[], by simpa using hmiddle.symm, by simpa using hrest.symm⟩

theorem utf8Size_toLower (c : Char) : c.toLower.utf8Size = c.utf8Size := by
  unfold Char.toLower
  split
  · rename_i hupper
    have hle : c.val.toNat ≤ 90 := UInt32.le_iff_toNat_le.mp hupper.2
    have hbyte : c.utf8Size = 1 := by
      rw [Char.utf8Size_eq_one_iff, UInt32.le_iff_toNat_le]
      exact Nat.le_trans hle (by decide)
    rw [hbyte, Char.utf8Size_eq_one_iff, UInt32.le_iff_toNat_le]
    have hshift : ('a'.val - 'A'.val).toNat = 32 := by decide
    rw [UInt32.toNat_add, hshift]
    exact Nat.le_trans (Nat.mod_le _ _) (Nat.le_trans (Nat.add_le_add_right hle 32) (by decide))
  · rfl

theorem size_map_toLower (text : Text) : size (text.map Char.toLower) = size text := by
  induction text with
  | nil => rfl
  | cons c cs ih => rw [List.map_cons, size_cons, size_cons, utf8Size_toLower, ih]

/-! ### Endings -/

theorem stripSuffix?_eq_some_iff {ending text rest : Text} :
    stripSuffix? ending text = some rest ↔ text = rest ++ ending := by
  simp only [stripSuffix?, Option.map_eq_some_iff, stripPrefix?_eq_some_iff]
  constructor
  · rintro ⟨tser, htext, rfl⟩
    rw [← text.reverse_reverse, htext]
    simp
  · rintro rfl
    exact ⟨rest.reverse, by simp⟩

theorem endsWith_iff {ending text : Text} :
    endsWith ending text = true ↔ ∃ rest, text = rest ++ ending := by
  simp only [endsWith, Option.isSome_iff_exists, stripSuffix?_eq_some_iff]

theorem dropReturn_cases (line : Text) : line = dropReturn line ++ ['\r'] ∨
    (dropReturn line = line ∧ ∀ c ∈ line.getLast?, c ≠ '\r') := by
  rw [dropReturn]
  cases hstrip : stripSuffix? ['\r'] line with
  | some rest => exact .inl (stripSuffix?_eq_some_iff.mp hstrip)
  | none =>
    refine .inr ⟨rfl, ?_⟩
    rintro _ hlast rfl
    obtain ⟨rest, rfl⟩ := List.getLast?_eq_some_iff.mp hlast
    rw [stripSuffix?_eq_some_iff.mpr rfl] at hstrip
    contradiction

/-- Made of whole lines: empty, or with a line feed at its end. -/
def Whole (text : Text) : Prop :=
  ∀ c ∈ text.getLast?, c = '\n'

instance (text : Text) : Decidable (Whole text) :=
  Option.decidableForallMem text.getLast?

@[simp] theorem whole_nil : Whole [] := by
  simp [Whole]

@[simp] theorem whole_feed : Whole ['\n'] := by
  simp [Whole]

theorem whole_append_iff {a b : Text} (hb : b ≠ []) : Whole (a ++ b) ↔ Whole b := by
  simp only [Whole, List.getLast?_append_of_ne_nil a hb]

theorem whole_cons_iff {c : Char} {cs : Text} (hcs : cs ≠ []) : Whole (c :: cs) ↔ Whole cs :=
  whole_append_iff (a := [c]) hcs

theorem Whole.append {a b : Text} (ha : Whole a) (hb : Whole b) : Whole (a ++ b) := by
  cases b with
  | nil => simpa using ha
  | cons c cs => exact (whole_append_iff (by simp)).mpr hb

@[simp] theorem whole_append_feed (a : Text) : Whole (a ++ ['\n']) :=
  (whole_append_iff (by simp)).mpr whole_feed

theorem endsWith_feed_iff {text : Text} :
    endsWith ['\n'] text = true ↔ text ≠ [] ∧ Whole text := by
  rw [endsWith_iff]
  constructor
  · rintro ⟨rest, rfl⟩
    simp
  · rintro ⟨hne, hwhole⟩
    refine ⟨text.dropLast, ?_⟩
    have hlast := hwhole (text.getLast hne) (by simp [List.getLast?_eq_some_getLast hne])
    rw [← hlast, List.dropLast_append_getLast]

/-! ### Pieces -/

@[simp] theorem pieces_eq_nil {text : Text} : pieces text = [] ↔ text = [] := by
  constructor
  · intro h
    simpa [h] using (flatten_pieces text).symm
  · rintro rfl
    rfl

theorem pieces_append {a : Text} (ha : Whole a) (b : Text) :
    pieces (a ++ b) = pieces a ++ pieces b := by
  induction a with
  | nil => rfl
  | cons c cs ih =>
    by_cases hc : c = '\n'
    · have hcs : Whole cs := by
        cases cs with
        | nil => simp
        | cons d ds => exact (whole_cons_iff (by simp)).mp ha
      simp [pieces, hc, ih hcs]
    · have hne : cs ≠ [] := by
        rintro rfl
        exact hc (ha c (by simp))
      have hsome : pieces cs ≠ [] := by simpa using hne
      have hjoin := ih ((whole_cons_iff hne).mp ha)
      cases hp : pieces cs with
      | nil => exact absurd hp hsome
      | cons piece rest => simp [pieces, hc, hjoin, hp]

/-- A text that is not cut any further. -/
def IsPiece (text : Text) : Prop :=
  pieces text = [text]

instance (text : Text) : Decidable (IsPiece text) :=
  inferInstanceAs (Decidable (pieces text = [text]))

theorem IsPiece.ne_nil {piece : Text} (h : IsPiece piece) : piece ≠ [] := by
  rintro rfl
  simp [IsPiece, pieces] at h

/-- The first piece is a whole line unless it is the last one, too. -/
theorem pieces_eq_cons {text piece : Text} {rest : List Text} (h : pieces text = piece :: rest) :
    IsPiece piece ∧ (rest ≠ [] → Whole piece) ∧ pieces rest.flatten = rest := by
  induction text generalizing piece rest with
  | nil => simp [pieces] at h
  | cons c cs ih =>
    by_cases hc : c = '\n'
    · simp only [pieces, hc, if_true, List.cons.injEq] at h
      obtain ⟨rfl, rfl⟩ := h
      simp [flatten_pieces, IsPiece, pieces]
    · simp only [pieces, hc, if_false] at h
      cases hp : pieces cs with
      | nil =>
        simp only [hp, List.cons.injEq] at h
        obtain ⟨rfl, rfl⟩ := h
        simp [IsPiece, pieces, hc]
      | cons first others =>
        simp only [hp, List.cons.injEq] at h
        obtain ⟨rfl, rfl⟩ := h
        obtain ⟨hpiece, hwhole, hrest⟩ := ih hp
        refine ⟨?_, fun hne => ?_, hrest⟩
        · have hfirst : pieces first = [first] := hpiece
          simp [IsPiece, pieces, hc, hfirst]
        · exact (whole_cons_iff hpiece.ne_nil).mpr (hwhole hne)

theorem isPiece_of_mem {text piece : Text} (h : piece ∈ pieces text) : IsPiece piece := by
  generalize hp : pieces text = rest at h
  induction rest generalizing text with
  | nil => simp at h
  | cons first rest ih =>
    obtain ⟨hfirst, -, hrest⟩ := pieces_eq_cons hp
    obtain rfl | h := List.mem_cons.mp h
    · exact hfirst
    · exact ih hrest h

theorem pieces_cons_of_whole {piece : Text} (hpiece : IsPiece piece) (hwhole : Whole piece)
    (rest : Text) : pieces (piece ++ rest) = piece :: pieces rest := by
  have hself : pieces piece = [piece] := hpiece
  rw [pieces_append hwhole, hself, List.singleton_append]

theorem isPiece_append_feed {text : Text} (h : '\n' ∉ text) : IsPiece (text ++ ['\n']) := by
  induction text with
  | nil => rfl
  | cons c cs ih =>
    obtain ⟨hc, hcs⟩ : '\n' ≠ c ∧ '\n' ∉ cs := by simpa using h
    have hrest : pieces (cs ++ ['\n']) = [cs ++ ['\n']] := ih hcs
    simp [IsPiece, pieces, Ne.symm hc, hrest]

theorem pieces_lines {lines : List Text} (h : ∀ line ∈ lines, '\n' ∉ line) (rest : Text) :
    pieces ((lines.flatMap fun line => line ++ ['\n']) ++ rest) =
      lines.map (fun line => line ++ ['\n']) ++ pieces rest := by
  induction lines with
  | nil => rfl
  | cons line others ih =>
    rw [List.forall_mem_cons] at h
    rw [List.flatMap_cons, List.append_assoc,
      pieces_cons_of_whole (isPiece_append_feed h.1) (whole_append_feed line), ih h.2]
    rfl

/-- A line feed behind a text that is not made of whole lines goes to its last piece. -/
theorem pieces_complete {text : Text} (h : ¬ Whole text) :
    ∃ init last, pieces text = init ++ [last] ∧ ¬ Whole last ∧
      pieces (text ++ ['\n']) = init ++ [last ++ ['\n']] := by
  induction text with
  | nil => simp at h
  | cons c cs ih =>
    by_cases hcs : cs = []
    · subst hcs
      have hc : c ≠ '\n' := by
        rintro rfl
        exact h whole_feed
      exact ⟨[], [c], by simp [pieces, hc], h, by simp [pieces, hc]⟩
    · have hwhole : ¬ Whole cs := by rwa [whole_cons_iff hcs] at h
      obtain ⟨init, last, hpieces, hlast, hcomplete⟩ := ih hwhole
      have hne : last ≠ [] := by
        rintro rfl
        simp at hlast
      by_cases hc : c = '\n'
      · exact ⟨['\n'] :: init, last, by simp [pieces, hc, hpieces], hlast,
          by simp [pieces, hc, hcomplete]⟩
      · cases init with
        | nil =>
          refine ⟨[], c :: last, ?_, by rwa [whole_cons_iff hne], ?_⟩
          · simp [pieces, hc, hpieces]
          · simp [pieces, hc, hcomplete]
        | cons first init =>
          refine ⟨(c :: first) :: init, last, ?_, hlast, ?_⟩
          · simp [pieces, hc, hpieces]
          · simp [pieces, hc, hcomplete]

theorem IsPiece.complete {piece : Text} (hpiece : IsPiece piece) (h : ¬ Whole piece) :
    IsPiece (piece ++ ['\n']) := by
  obtain ⟨init, last, hpieces, -, hcomplete⟩ := pieces_complete h
  have hself : [piece] = init ++ [last] := Eq.trans hpiece.symm hpieces
  obtain ⟨rfl, rfl⟩ : init = [] ∧ last = piece := by
    cases init <;> simp_all
  exact hcomplete

theorem pieces_flatten_suffix {text : Text} {a b : List Text} (h : pieces text = a ++ b) :
    pieces b.flatten = b := by
  induction a generalizing text with
  | nil =>
    rw [List.nil_append] at h
    rw [← h, flatten_pieces]
  | cons piece rest ih => exact ih (pieces_eq_cons h).2.2

theorem pieces_flatten_prefix {text : Text} {a b : List Text} (h : pieces text = a ++ b) :
    pieces a.flatten = a := by
  induction a generalizing text with
  | nil => rfl
  | cons piece rest ih =>
    obtain ⟨hpiece, hwhole, hrest⟩ := pieces_eq_cons h
    cases rest with
    | nil =>
      rw [List.flatten_singleton]
      exact hpiece
    | cons next others =>
      rw [List.flatten_cons, pieces_cons_of_whole hpiece (hwhole (by simp)), ih hrest]

theorem IsPiece.feed_not_mem {line : Text} {c : Char} (h : IsPiece (line ++ [c])) :
    '\n' ∉ line := by
  intro hfeed
  obtain ⟨a, b, rfl⟩ := List.append_of_mem hfeed
  have hsplit : a ++ '\n' :: b ++ [c] = (a ++ ['\n']) ++ (b ++ [c]) := by simp
  have hself : pieces (a ++ '\n' :: b ++ [c]) = [a ++ '\n' :: b ++ [c]] := h
  rw [hsplit, pieces_append (whole_append_feed a)] at hself
  have hlength := congrArg List.length hself
  have hfront : 0 < (pieces (a ++ ['\n'])).length := by simp [List.length_pos_iff]
  have hback : 0 < (pieces (b ++ [c])).length := by simp [List.length_pos_iff]
  rw [List.length_append, List.length_singleton] at hlength
  omega

/-- In front of a piece are whole lines. -/
theorem whole_flatten_of_pieces_eq {text piece : Text} {before after : List Text}
    (h : pieces text = before ++ piece :: after) : Whole before.flatten := by
  induction before generalizing text with
  | nil => exact whole_nil
  | cons first before ih =>
    obtain ⟨-, hwhole, hrest⟩ := pieces_eq_cons h
    exact (hwhole (by simp)).append (ih hrest)

/-- The offset is one at which a line of the text begins or ends. -/
def IsLineEnd (text : Text) (offset : Nat) : Prop :=
  ∃ before after, pieces text = before ++ after ∧ size before.flatten = offset

theorem isLineEnd_size (text : Text) : IsLineEnd text (size text) :=
  ⟨pieces text, [], by simp, by rw [flatten_pieces]⟩

end DiagramSync.Text

namespace DiagramSync.Line

open Text

theorem content_append_feed (line : Text) : content (line ++ ['\n']) = dropReturn line := by
  simp [content, dropLineFeed, stripSuffix?_eq_some_iff.mpr]

/-- A line feed that is put behind a text's last line does not change what the line says. -/
theorem content_complete {piece : Text} (h : ¬ Whole piece) :
    content (piece ++ ['\n']) = content piece := by
  have hkeep : dropLineFeed piece = piece := by
    have hnone : stripSuffix? ['\n'] piece = none := by
      rw [Option.eq_none_iff_forall_not_mem]
      rintro rest hrest
      rw [Option.mem_def, stripSuffix?_eq_some_iff] at hrest
      exact h (hrest ▸ whole_append_feed rest)
    simp [dropLineFeed, hnone]
  rw [content_append_feed, content, hkeep]

end DiagramSync.Line
