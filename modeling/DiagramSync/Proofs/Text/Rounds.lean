import DiagramSync.Proofs.Update.Patch
import DiagramSync.Text.Alphanumeric

/-!
Searches through a text by offsets. A search tries a reader wherever a word may begin, goes on behind
what is read, and one character further where nothing is. A round cuts the text between characters and
brings the search on, as long as the reader never returns without having read anything; so a search
comes to the end of its text, and no two of the stretches that it reads overlap. What it finds is
what is found when the text is gone through character by character.
-/

namespace DiagramSync

namespace Text

/-! ### Rounds -/

/-- A round of a search: where it begins, where the next one does, and what is read in between, if
anything is. -/
structure Round (α : Type) where
  start : Nat
  next : Nat
  found : Option α
  deriving Repr, DecidableEq

/-- Returns `true` if a word may begin behind the text. -/
def mayBegin (before : Text) : Bool :=
  before.getLast?.all fun c => !continuesWord c

@[simp] theorem mayBegin_append_singleton (before : Text) (c : Char) :
    mayBegin (before ++ [c]) = !continuesWord c := by
  simp [mayBegin]

section Searches

variable {α : Type} (sized? : Text → Option (Option (α × Nat))) (text : Text)

/-- What stands behind `before`, with its size in bytes, if a word may begin there. -/
def attempt? (before rest : Text) : Option (Option (α × Nat)) :=
  if mayBegin before then sized? rest else some none

/-- The round at an offset, of which there is none at the end of the text. `sized?` reads what begins
a text, if anything does, and how many bytes that takes. Nothing is returned where a cut cannot be
made. -/
def round? (offset : Nat) : Option (Option (Round α)) := do
  let before ← slice? 0 offset text
  match ← slice? offset (size text) text with
  | [] => return none
  | c :: rest =>
    match ← attempt? sized? before (c :: rest) with
    | some (item, width) => return some ⟨offset, offset + width, some item⟩
    | none => return some ⟨offset, offset + c.utf8Size, none⟩

/-- A search that begins at an offset, makes these rounds one after another and comes to the end of
the text. -/
inductive Searches : (offset : Nat) → List (Round α) → Prop where
  | done {offset : Nat} : round? sized? text offset = some none → Searches offset []
  | round {offset : Nat} {rounds : List (Round α)} (round : Round α) :
      round? sized? text offset = some (some round) → Searches round.next rounds →
      Searches offset (round :: rounds)

end Searches

/-- The rounds begin and end between characters, each one brings the search on and stays within the
text, and none begins before the one in front of it ends. -/
structure Progress {α : Type} (text : Text) (rounds : List (Round α)) : Prop where
  cut : ∀ round ∈ rounds, isBoundary round.start text = true ∧ isBoundary round.next text = true
  rise : ∀ round ∈ rounds, round.start < round.next ∧ round.next ≤ size text
  apart : rounds.Pairwise fun first second => first.next ≤ second.start

variable {α : Type}

/-- The items that are read in a text, character by character. `wordStart` says whether a word may
begin where the text does; `skip` counts the characters of the last item left. -/
def items (read? : Text → Option (α × Text)) (wordStart : Bool) (skip : Nat) : Text → List α
  | [] => []
  | c :: cs =>
    match skip with
    | skip + 1 => items read? (!continuesWord c) skip cs
    | 0 =>
      match if wordStart then read? (c :: cs) else none with
      | some (item, rest) => item :: items read? (!continuesWord c) (cs.length - rest.length) cs
      | none => items read? (!continuesWord c) 0 cs

/-- `sized?` reads what `read?` does, of which there is always something in front of what is left,
and counts its bytes. -/
structure Sizes (sized? : Text → Option (Option (α × Nat))) (read? : Text → Option (α × Text)) :
    Prop where
  none {text : Text} : read? text = none → sized? text = some none
  some {text rest : Text} {item : α} : read? text = some (item, rest) →
    ∃ front, text = front ++ rest ∧ front ≠ [] ∧ sized? text = some (some (item, size front))

variable {sized? : Text → Option (Option (α × Nat))} {read? : Text → Option (α × Text)}

theorem items_skip (before front rest : Text) :
    items read? (mayBegin before) front.length (front ++ rest) =
      items read? (mayBegin (before ++ front)) 0 rest := by
  induction front generalizing before with
  | nil => rw [List.length_nil, List.nil_append, List.append_nil]
  | cons c front ih =>
    have hnext := ih (before ++ [c])
    rw [mayBegin_append_singleton, List.append_assoc, List.singleton_append] at hnext
    exact hnext

/-! ### One round -/

theorem round?_end (text : Text) : round? sized? text (size text) = some none := by
  have hfront : slice? 0 (size text) (text ++ []) = some text := slice?_front text []
  have hbehind : slice? (size text) (size (text ++ [])) (text ++ []) = some [] :=
    slice?_size_eq_some_iff.mpr ⟨text, rfl, rfl⟩
  rw [List.append_nil] at hfront hbehind
  rw [round?, hfront, hbehind]
  rfl

/-- A round is about what stands in front of a rest: an item, or one character. -/
theorem exists_round? (h : Sizes sized? read?) (before : Text) (c : Char) (cs : Text) :
    ∃ front rest found, c :: cs = front ++ rest ∧ front ≠ [] ∧
      round? sized? (before ++ c :: cs) (size before) =
        some (some ⟨size before, size (before ++ front), found⟩) ∧
      items read? (mayBegin before) 0 (c :: cs) =
        found.toList ++ items read? (mayBegin (before ++ front)) 0 rest := by
  have hbehind : slice? (size before) (size (before ++ c :: cs)) (before ++ c :: cs) =
      some (c :: cs) :=
    slice?_size_eq_some_iff.mpr ⟨before, rfl, rfl⟩
  rw [round?, slice?_front, hbehind, items]
  cases hread : if mayBegin before then read? (c :: cs) else none with
  | none =>
    have hattempt : attempt? sized? before (c :: cs) = some none := by
      rw [attempt?]
      split
      · rename_i hbegin
        exact h.none ((if_pos hbegin).symm.trans hread)
      · rfl
    refine ⟨[c], cs, none, rfl, List.cons_ne_nil c [], ?_, ?_⟩
    · simp [hattempt]
    · simp
  | some found =>
    obtain ⟨item, rest⟩ := found
    obtain ⟨hbegin, hread⟩ : mayBegin before = true ∧ read? (c :: cs) = some (item, rest) := by
      simpa using hread
    obtain ⟨front, hfront, hne, hsized⟩ := h.some hread
    have hattempt : attempt? sized? before (c :: cs) = some (some (item, size front)) :=
      (if_pos hbegin).trans hsized
    refine ⟨front, rest, some item, hfront, hne, ?_, ?_⟩
    · simp [hattempt]
    · obtain ⟨d, front, rfl⟩ := List.exists_cons_of_ne_nil hne
      rw [List.cons_append, List.cons.injEq] at hfront
      obtain ⟨rfl, rfl⟩ := hfront
      have hskip : items read? (mayBegin (before ++ [c])) front.length (front ++ rest) = _ :=
        items_skip (before ++ [c]) front rest
      rw [mayBegin_append_singleton, List.append_assoc, List.singleton_append] at hskip
      simp only [List.length_append, Nat.add_sub_cancel, hskip, Option.toList_some,
        List.singleton_append]

theorem of_round?_eq_some {text : Text} {offset : Nat} {round : Round α}
    (h : Sizes sized? read?) (hround : round? sized? text offset = some (some round)) :
    ∃ before front rest, text = before ++ (front ++ rest) ∧ front ≠ [] ∧
      round.start = offset ∧ size before = offset ∧ round.next = size (before ++ front) := by
  have hcut : ∃ rest, slice? offset (size text) text = some rest := by
    obtain ⟨before, -, hround⟩ := Option.bind_eq_some_iff.mp hround
    obtain ⟨rest, hrest, -⟩ := Option.bind_eq_some_iff.mp hround
    exact ⟨rest, hrest⟩
  obtain ⟨rest, hrest⟩ := hcut
  obtain ⟨before, rfl, rfl⟩ := slice?_size_eq_some_iff.mp hrest
  cases rest with
  | nil =>
    rw [List.append_nil, round?_end] at hround
    cases Option.some.inj hround
  | cons c cs =>
    obtain ⟨front, rest, found, hfront, hne, hmade, -⟩ := exists_round? h before c cs
    obtain rfl := Option.some.inj (Option.some.inj (hround.symm.trans hmade))
    exact ⟨before, front, rest, by rw [hfront], hne, rfl, rfl, rfl⟩

/-! ### A whole search -/

/-- The induction is on the rounds: the offset at which the search goes on is a bound for the starts
of the rounds that follow. -/
theorem Searches.progress {text : Text} {offset : Nat} {rounds : List (Round α)}
    (hsizes : Sizes sized? read?) (h : Searches sized? text offset rounds) :
    Progress text rounds ∧ ∀ round ∈ rounds, offset ≤ round.start := by
  induction h with
  | done => exact ⟨⟨by simp, by simp, .nil⟩, by simp⟩
  | round round hround _ ih =>
    obtain ⟨before, front, rest, rfl, hne, hstart, hsize, hnext⟩ := of_round?_eq_some hsizes hround
    obtain ⟨hprogress, hbound⟩ := ih
    have hpos : size front ≠ 0 := fun hzero => hne (size_eq_zero.mp hzero)
    have hcut : isBoundary round.start (before ++ (front ++ rest)) = true ∧
        isBoundary round.next (before ++ (front ++ rest)) = true := by
      rw [isBoundary_iff, isBoundary_iff]
      exact ⟨⟨before, front ++ rest, rfl, hsize.trans hstart.symm⟩,
        ⟨before ++ front, rest, (List.append_assoc _ _ _).symm, hnext.symm⟩⟩
    have hrise : round.start < round.next ∧ round.next ≤ size (before ++ (front ++ rest)) := by
      rw [hnext]
      simp only [size_append]
      omega
    refine ⟨⟨?_, ?_, ?_⟩, ?_⟩
    · exact List.forall_mem_cons.mpr ⟨hcut, hprogress.cut⟩
    · exact List.forall_mem_cons.mpr ⟨hrise, hprogress.rise⟩
    · exact List.pairwise_cons.mpr ⟨hbound, hprogress.apart⟩
    · rw [List.forall_mem_cons]
      refine ⟨Nat.le_of_eq hstart.symm, fun later hlater => ?_⟩
      have hle := hbound later hlater
      omega

/-- The induction is on the length of the text that is left. -/
theorem exists_searches_behind (h : Sizes sized? read?) (before rest : Text) :
    ∃ rounds, Searches sized? (before ++ rest) (size before) rounds ∧
      rounds.filterMap Round.found = items read? (mayBegin before) 0 rest := by
  induction hlength : rest.length using Nat.strongRecOn generalizing before rest with
  | _ length ih =>
    cases rest with
    | nil =>
      rw [List.append_nil]
      exact ⟨[], .done (round?_end before), rfl⟩
    | cons c cs =>
      obtain ⟨front, rest, found, hfront, hne, hround, hitems⟩ := exists_round? h before c cs
      have hshort : rest.length < length := by
        rw [← hlength, hfront, List.length_append]
        have := List.length_pos_iff.mpr hne
        omega
      obtain ⟨rounds, hrounds, hfound⟩ := ih rest.length hshort (before ++ front) rest rfl
      rw [List.append_assoc, ← hfront] at hrounds
      refine ⟨⟨size before, size (before ++ front), found⟩ :: rounds, .round _ hround hrounds, ?_⟩
      rw [hitems, ← hfound]
      cases found <;> rfl

/-- A search comes to an end, makes progress all the way and finds the items. -/
theorem exists_searches (h : Sizes sized? read?) (text : Text) :
    ∃ rounds, Searches sized? text 0 rounds ∧ Progress text rounds ∧
      rounds.filterMap Round.found = items read? true 0 text := by
  obtain ⟨rounds, hrounds, hfound⟩ := exists_searches_behind h [] text
  exact ⟨rounds, hrounds, (hrounds.progress h).1, hfound⟩

end Text
end DiagramSync
