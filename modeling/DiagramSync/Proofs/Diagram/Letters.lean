import DiagramSync.Proofs.Diagram.Distinct

/-!
The letters of a node are its number in base 26 without a zero: `A` counts 1 and `Z` counts 26. Each
number from 1 on has one word of letters and each word one number, and the numbers rise with the
length of the words and, among words of one length, with their alphabetical order.
-/

namespace DiagramSync.Label

/-! ### Words of letters -/

/-- Capital letters, at least one. -/
def IsLetters (word : Text) : Prop :=
  word ≠ [] ∧ ∀ c ∈ word, 'A' ≤ c ∧ c ≤ 'Z'

instance (word : Text) : Decidable (IsLetters word) :=
  inferInstanceAs (Decidable (_ ∧ _))

/-- What a letter counts, from 1 to 26. -/
def letterValue (c : Char) : Nat :=
  c.toNat - 'A'.toNat + 1

theorem lettersValue_nil : lettersValue [] = 0 := rfl

theorem lettersValue_append_singleton (word : Text) (c : Char) :
    lettersValue (word ++ [c]) = 26 * lettersValue word + letterValue c := by
  simp [lettersValue, letterValue]

theorem lettersValue_cons (c : Char) (word : Text) :
    lettersValue (c :: word) = letterValue c * 26 ^ word.length + lettersValue word := by
  induction word using List.reverseRecOn with
  | nil => simp [lettersValue, letterValue]
  | append_singleton word d ih =>
    rw [← List.cons_append, lettersValue_append_singleton, lettersValue_append_singleton, ih,
      List.length_append, List.length_singleton]
    ring

section Capitals

variable {c d : Char} (hc : 'A' ≤ c ∧ c ≤ 'Z') (hd : 'A' ≤ d ∧ d ≤ 'Z')

include hc

theorem toNat_of_capital : 65 ≤ c.toNat ∧ c.toNat ≤ 90 := by
  rw [Char.le_def, Char.le_def, UInt32.le_iff_toNat_le, UInt32.le_iff_toNat_le] at hc
  exact hc

theorem letterValue_of_capital : 1 ≤ letterValue c ∧ letterValue c ≤ 26 := by
  have hrange := toNat_of_capital hc
  have hfirst : 'A'.toNat = 65 := rfl
  unfold letterValue
  omega

theorem letter_letterValue : letter (letterValue c - 1) = c := by
  have hrange := toNat_of_capital hc
  have hfirst : 'A'.toNat = 65 := rfl
  have hcode : 'A'.toNat + (letterValue c - 1) = c.toNat := by
    unfold letterValue
    omega
  rw [letter, hcode, Char.ofNat_toNat]

include hd

theorem letterValue_lt_iff : letterValue c < letterValue d ↔ c < d := by
  have hrange := toNat_of_capital hc
  have hrange' := toNat_of_capital hd
  have hfirst : 'A'.toNat = 65 := rfl
  have hcodes : c < d ↔ c.toNat < d.toNat := by
    rw [Char.lt_def, UInt32.lt_iff_toNat_lt]
    rfl
  rw [hcodes]
  unfold letterValue
  omega

end Capitals

theorem IsLetters.of_append_singleton {word : Text} {c : Char} (h : IsLetters (word ++ [c])) :
    (word = [] ∨ IsLetters word) ∧ 'A' ≤ c ∧ c ≤ 'Z' := by
  have hword : ∀ d ∈ word, 'A' ≤ d ∧ d ≤ 'Z' := fun d hd => h.2 d (List.mem_append_left _ hd)
  refine ⟨?_, h.2 c (by simp)⟩
  by_cases hne : word = []
  · exact .inl hne
  · exact .inr ⟨hne, hword⟩

/-! ### One word for each number -/

theorem capital_letter {digit : Nat} (h : digit < 26) :
    'A' ≤ letter digit ∧ letter digit ≤ 'Z' := by
  have hall : ∀ digit < 26, 'A' ≤ letter digit ∧ letter digit ≤ 'Z' := by decide
  exact hall digit h

/-- The induction follows the division that splits the last letter off. -/
theorem isLetters_lettersOf {n : Nat} (hn : n ≠ 0) : IsLetters (lettersOf n) := by
  induction n using lettersOf.induct with
  | case1 => contradiction
  | case2 n _ ih =>
    have hlast : 'A' ≤ letter ((n - 1) % 26) ∧ letter ((n - 1) % 26) ≤ 'Z' :=
      capital_letter (Nat.mod_lt _ (by decide))
    rw [lettersOf, if_neg hn]
    refine ⟨by simp, fun c hc => ?_⟩
    obtain hc | hc := List.mem_append.mp hc
    · by_cases hzero : (n - 1) / 26 = 0
      · simp [hzero, lettersOf] at hc
      · exact (ih hzero).2 c hc
    · rw [List.mem_singleton.mp hc]
      exact hlast

theorem lettersValue_pos {word : Text} (h : IsLetters word) : 0 < lettersValue word := by
  obtain ⟨init, c, rfl⟩ := (List.eq_nil_or_concat' word).resolve_left h.1
  have hc := letterValue_of_capital h.of_append_singleton.2
  rw [lettersValue_append_singleton]
  omega

/-- Each word is the one for its value. The induction takes the last letter off, as the division
by 26 does. -/
theorem lettersOf_lettersValue {word : Text} (h : word = [] ∨ IsLetters word) :
    lettersOf (lettersValue word) = word := by
  induction word using List.reverseRecOn with
  | nil => simp [lettersValue_nil, lettersOf]
  | append_singleton word c ih =>
    obtain ⟨hword, hc⟩ := (h.resolve_left (by simp)).of_append_singleton
    have hvalue := letterValue_of_capital hc
    have hdiv : (26 * lettersValue word + letterValue c - 1) / 26 = lettersValue word := by
      omega
    have hmod : (26 * lettersValue word + letterValue c - 1) % 26 = letterValue c - 1 := by
      omega
    rw [lettersValue_append_singleton, lettersOf, if_neg (by omega), hdiv, hmod, ih hword,
      letter_letterValue hc]

/-! ### The order of the words -/

/-- The least value of so many letters has `A` in all places, the largest one `Z`. -/
theorem lettersValue_bounds {word : Text} (h : ∀ c ∈ word, 'A' ≤ c ∧ c ≤ 'Z') :
    26 ^ word.length ≤ 25 * lettersValue word + 1 ∧
      25 * lettersValue word + 26 ≤ 26 * 26 ^ word.length := by
  induction word with
  | nil => simp [lettersValue_nil]
  | cons c word ih =>
    rw [List.forall_mem_cons] at h
    obtain ⟨hleast, hmost⟩ := ih h.2
    obtain ⟨hpos, hle⟩ := letterValue_of_capital h.1
    have hfront : 26 ^ word.length ≤ letterValue c * 26 ^ word.length :=
      Nat.le_mul_of_pos_left _ hpos
    have hfront' : letterValue c * 26 ^ word.length ≤ 26 * 26 ^ word.length :=
      Nat.mul_le_mul_right _ hle
    rw [lettersValue_cons, List.length_cons, Nat.pow_succ]
    omega

theorem lettersValue_lt_of_length_lt {first second : Text} (hfirst : IsLetters first)
    (hsecond : IsLetters second) (h : first.length < second.length) :
    lettersValue first < lettersValue second := by
  have hmost := (lettersValue_bounds hfirst.2).2
  have hleast := (lettersValue_bounds hsecond.2).1
  have hpow : 26 * 26 ^ first.length ≤ 26 ^ second.length := by
    rw [← Nat.pow_succ']
    exact Nat.pow_le_pow_right (by decide) h
  omega

/-- Where two words of one length first differ, the letter counts more than all behind it. -/
theorem lt_of_lettersValue_lt {first second : Text} (hfirst : ∀ c ∈ first, 'A' ≤ c ∧ c ≤ 'Z')
    (hsecond : ∀ c ∈ second, 'A' ≤ c ∧ c ≤ 'Z') (hlength : first.length = second.length)
    (h : lettersValue first < lettersValue second) : first < second := by
  induction first generalizing second with
  | nil =>
    obtain rfl := List.length_eq_zero_iff.mp hlength.symm
    omega
  | cons c first ih =>
    cases second with
    | nil => simp at hlength
    | cons d second =>
      rw [List.forall_mem_cons] at hfirst hsecond
      replace hlength : first.length = second.length := by simpa using hlength
      rw [lettersValue_cons, lettersValue_cons, hlength] at h
      rw [List.cons_lt_cons_iff]
      by_cases hcd : c = d
      · subst hcd
        exact .inr ⟨rfl, ih hfirst.2 hsecond.2 hlength (by omega)⟩
      · left
        by_contra hge
        have hmore : letterValue d < letterValue c :=
          (letterValue_lt_iff hsecond.1 hfirst.1).mpr (lt_of_le_of_ne (not_lt.mp hge) (Ne.symm hcd))
        have hfront := Nat.mul_le_mul_right (26 ^ second.length) hmore
        have hleast := (lettersValue_bounds hfirst.2).1
        have hmost := (lettersValue_bounds hsecond.2).2
        rw [hlength] at hleast
        rw [Nat.succ_mul] at hfront
        omega

/-! ### Machine words -/

theorem toNat_sub_one {w : Nat} {n : BitVec w} (hn : n ≠ 0#w) :
    (n - 1#w).toNat = n.toNat - 1 := by
  have hpos : 0 < n.toNat := BitVec.toNat_pos_of_ne_zero hn
  have hlt := n.isLt
  have hone : (1#w).toNat = 1 := by
    rw [BitVec.toNat_ofNat]
    exact Nat.mod_eq_of_lt (by omega)
  rw [BitVec.toNat_sub_of_le, hone]
  rw [BitVec.le_def, hone]
  exact hpos

/-- The letters for a number in a machine word, the last letter first. -/
def pushedLetters {w : Nat} (n : BitVec w) : Text :=
  if n = 0#w then []
  else letter ((n - 1#w) % 26#w).toNat :: pushedLetters ((n - 1#w) / 26#w)
termination_by n.toNat
decreasing_by
  rename_i hn
  have hpos : 0 < n.toNat := BitVec.toNat_pos_of_ne_zero hn
  rw [BitVec.toNat_udiv, toNat_sub_one hn]
  exact (Nat.div_le_self _ _).trans_lt (Nat.sub_one_lt_of_lt hpos)

/-- The letters of a node whose place is kept in a word of `w` bits. The place after the largest
one is 0 again, so that one has no letters. -/
def lettersInWord {w : Nat} (index : BitVec w) : String :=
  String.ofList (pushedLetters (index + 1#w)).reverse

/-- Nothing is lost in a word that has room for the base. -/
theorem pushedLetters_eq {w : Nat} (hw : 5 ≤ w) (n : BitVec w) :
    pushedLetters n = (lettersOf n.toNat).reverse := by
  have hbase : (26#w).toNat = 26 := by
    have hpow : 2 ^ 5 ≤ 2 ^ w := Nat.pow_le_pow_right (by decide) hw
    rw [BitVec.toNat_ofNat]
    exact Nat.mod_eq_of_lt (by omega)
  induction n using pushedLetters.induct with
  | case1 => simp [pushedLetters, lettersOf]
  | case2 n hn ih =>
    have hpos : 0 < n.toNat := BitVec.toNat_pos_of_ne_zero hn
    rw [pushedLetters, if_neg hn, ih, BitVec.toNat_udiv, BitVec.toNat_umod, hbase,
      toNat_sub_one hn, lettersOf.eq_def n.toNat, if_neg (by omega)]
    simp

theorem lettersInWord_eq {w : Nat} (hw : 5 ≤ w) {index : BitVec w}
    (h : index.toNat < 2 ^ w - 1) : lettersInWord index = letters index.toNat := by
  have hone : (1#w).toNat = 1 := by
    rw [BitVec.toNat_ofNat]
    exact Nat.mod_eq_of_lt (by omega)
  have hnext : (index + 1#w).toNat = index.toNat + 1 := by
    rw [BitVec.toNat_add, hone]
    exact Nat.mod_eq_of_lt (by omega)
  rw [lettersInWord, pushedLetters_eq hw, List.reverse_reverse, hnext, letters]

/-! ### The numeration -/

/-- The letters of nodes are the words over `A` to `Z`, each for one node: the one at the place
`index` has the value `index + 1`, and nodes that come later have longer words, or words of the same
length that come later in the alphabet. Places in machine words give the same letters as long as the
next place fits into the word. -/
theorem letters_numerate {w : Nat} (hw : 5 ≤ w) :
    (∀ index : BitVec w, index.toNat < 2 ^ w - 1 →
      lettersInWord index = letters index.toNat) ∧
    (∀ index, IsLetters (letters index).toList ∧
      lettersValue (letters index).toList = index + 1) ∧
    Function.Injective letters ∧
    (∀ word, IsLetters word →
      ∃ index, (letters index).toList = word ∧ index + 1 = lettersValue word) ∧
    ∀ first second, first < second →
      (letters first).length < (letters second).length ∨
        (letters first).length = (letters second).length ∧ letters first < letters second := by
  have hletters : ∀ index, IsLetters (letters index).toList ∧
      lettersValue (letters index).toList = index + 1 := by
    intro index
    rw [letters, String.toList_ofList, lettersValue_lettersOf]
    exact ⟨isLetters_lettersOf (Nat.succ_ne_zero index), rfl⟩
  refine ⟨fun index => lettersInWord_eq hw, hletters, fun _ _ => letters_injective, ?_, ?_⟩
  · intro word hword
    have hpos := lettersValue_pos hword
    refine ⟨lettersValue word - 1, ?_, by omega⟩
    rw [letters, String.toList_ofList, Nat.sub_add_cancel hpos, lettersOf_lettersValue (.inr hword)]
  · intro first second hlt
    obtain ⟨hfirst, hvalue⟩ := hletters first
    obtain ⟨hsecond, hvalue'⟩ := hletters second
    rw [← String.length_toList, ← String.length_toList, String.lt_iff_toList_lt]
    obtain hshorter | hsame | hlonger :=
      lt_trichotomy (letters first).toList.length (letters second).toList.length
    · exact .inl hshorter
    · exact .inr ⟨hsame, lt_of_lettersValue_lt hfirst.2 hsecond.2 hsame (by omega)⟩
    · have hgt := lettersValue_lt_of_length_lt hsecond hfirst hlonger
      omega

/-- `ZZ` is the last word of two letters. -/
theorem letters_numerate_zz :
    5 ≤ 64 ∧ (701#64).toNat < 2 ^ 64 - 1 ∧ lettersInWord 701#64 = letters 701 ∧
      IsLetters "ZZ".toList ∧
      (∃ index, (letters index).toList = "ZZ".toList ∧ index + 1 = lettersValue "ZZ".toList) ∧
      701 < 702 ∧ ((letters 701).length < (letters 702).length ∨
        (letters 701).length = (letters 702).length ∧ letters 701 < letters 702) := by
  have hwidth : 5 ≤ 64 := by decide
  have hfits : (701#64).toNat < 2 ^ 64 - 1 := by decide
  have hword : IsLetters "ZZ".toList := by decide
  have hlater : 701 < 702 := by decide
  obtain ⟨hmachine, -, -, hreached, horder⟩ := letters_numerate hwidth
  exact ⟨hwidth, hfits, hmachine 701#64 hfits, hword, hreached _ hword, hlater,
    horder 701 702 hlater⟩

end DiagramSync.Label
