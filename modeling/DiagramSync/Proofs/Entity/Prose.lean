import DiagramSync.Proofs.Entity.Mention

/-!
Mentions in prose that is put together from parts. A phrase begins with a word that a space or a
hyphen ends, so there is none in words that other marks follow; and a phrase in front of a name is
read as this very phrase, unless the name makes a longer one of it.
-/

namespace DiagramSync

open Text

/-! ### Words -/

namespace Text

theorem isAlphanumeric_of_isAlphanum {c : Char} (h : c.isAlphanum = true) :
    isAlphanumeric c = true := by
  have hascii : c.toNat < 0x80 := by
    simp only [Char.isAlphanum, Char.isAlpha, Char.isUpper, Char.isLower, Char.isDigit,
      Bool.or_eq_true, Bool.and_eq_true, decide_eq_true_eq, ge_iff_le, UInt32.le_iff_toNat_le,
      Char.reduceVal, UInt32.reduceToNat, Char.toNat_val] at h
    omega
  rw [isAlphanumeric, if_pos hascii, h]

end Text

/-! ### The vocabulary -/

namespace Phrase

theorem map_toLower_text : ∀ phrase ∈ all,
    phrase.text.toList.map Char.toLower = phrase.text.toList := by
  decide

theorem separator_of_mem_all : ∀ phrase ∈ all, phrase.text.toList.takeWhile Char.isLower ≠ [] ∧
    ((phrase.text.toList.dropWhile Char.isLower).head? = some ' ' ∨
      (phrase.text.toList.dropWhile Char.isLower).head? = some '-') := by
  decide

theorem exists_word {phrase : Phrase} (h : phrase ∈ all) :
    ∃ word separator rest, phrase.text.toList = word ++ separator :: rest ∧ word ≠ [] ∧
      (∀ c ∈ word, c.isLower = true) ∧ (separator = ' ' ∨ separator = '-') := by
  have hsplit : ∀ {separator}, (phrase.text.toList.dropWhile Char.isLower).head? = some separator →
      ∃ rest, phrase.text.toList =
        phrase.text.toList.takeWhile Char.isLower ++ separator :: rest := by
    intro separator hhead
    obtain ⟨rest, hrest⟩ := List.head?_eq_some_iff.mp hhead
    exact ⟨rest, by rw [← hrest, List.takeWhile_append_dropWhile]⟩
  have hlower : ∀ c ∈ phrase.text.toList.takeWhile Char.isLower, c.isLower = true :=
    List.all_eq_true.mp List.all_takeWhile
  obtain ⟨hne, hspace | hhyphen⟩ := separator_of_mem_all phrase h
  · obtain ⟨rest, hrest⟩ := hsplit hspace
    exact ⟨_, ' ', rest, hrest, hne, hlower, .inl rfl⟩
  · obtain ⟨rest, hrest⟩ := hsplit hhyphen
    exact ⟨_, '-', rest, hrest, hne, hlower, .inr rfl⟩

/-- There are two ways in which a phrase is the beginning of another one. -/
theorem extension_of_begins : ∀ phrase ∈ all, ∀ other ∈ all,
    phrase.text.toList <+: other.text.toList → other = phrase ∨
      other.text.toList = phrase.text.toList ++ " or more".toList ∨
      other.text.toList = phrase.text.toList ++ " many".toList := by
  decide +kernel

end Phrase

namespace Mention

variable {known : List String} {word : Text} {c : Char}

/-! ### Words without phrases -/

theorem phrase?_word (hword : ∀ d ∈ word, d ≠ ' ' ∧ d ≠ '-') (hc : c.isAlpha = false)
    (hend : word = [] ∨ c ≠ ' ' ∧ c ≠ '-') (rest : Text) : phrase? (word ++ c :: rest) = none := by
  rw [Option.eq_none_iff_forall_not_mem]
  rintro ⟨phrase, after⟩ hfound
  obtain ⟨hphrase, -, matched, htext, hmatched⟩ := of_phrase?_eq_some hfound
  obtain ⟨letters, separator, more, hsplit, hne, hletters, hseparator⟩ := Phrase.exists_word hphrase
  rw [Phrase.map_toLower_text phrase hphrase, hsplit] at hmatched
  obtain ⟨first, behind, rfl, rfl, hbehind⟩ := List.map_eq_append_iff.mp hmatched
  obtain ⟨mark, others, rfl, hmark, -⟩ := List.map_eq_cons_iff.mp hbehind
  have hmark' : mark = ' ' ∨ mark = '-' := by
    obtain rfl | rfl := hseparator
    · exact .inl (eq_of_toLower_eq rfl hmark)
    · exact .inr (eq_of_toLower_eq rfl hmark)
  have hseam : ¬ (word = first ∧ c = mark) := by
    rintro ⟨rfl, rfl⟩
    obtain rfl | hc := hend
    · exact hne rfl
    · exact hmark'.elim hc.1 hc.2
  rw [List.append_assoc, List.cons_append, List.append_eq_append_iff] at htext
  -- The first word of the phrase would go on behind the given word, or end inside of it.
  obtain ⟨extra, rfl, hextra⟩ | ⟨extra, rfl, hextra⟩ := htext
  · cases extra with
    | nil => exact hseam ⟨(List.append_nil word).symm, (List.cons.inj hextra).1⟩
    | cons d extra =>
      obtain ⟨rfl, -⟩ := List.cons.inj hextra
      have hlower := hletters c.toLower (List.mem_map_of_mem (by simp))
      rw [Char.isLower_toLower_eq_isAlpha, hc] at hlower
      contradiction
  · cases extra with
    | nil => exact hseam ⟨List.append_nil first, (List.cons.inj hextra).1.symm⟩
    | cons d extra =>
      obtain ⟨rfl, -⟩ := List.cons.inj hextra
      have hplain := hword mark (by simp)
      exact hmark'.elim hplain.1 hplain.2

theorem scan_of_phrase?_eq_none {rest : Text} (h : phrase? (c :: rest) = none) (wordStart : Bool) :
    scan known wordStart 0 (c :: rest) = scan known (!continuesWord c) 0 rest := by
  have hat : at? known (c :: rest) = none := by
    rw [at?, h]
  rw [scan, hat, ite_self]

theorem scan_word (hword : ∀ d ∈ word, d ≠ ' ' ∧ d ≠ '-') (hc : c.isAlpha = false)
    (hend : word = [] ∨ c ≠ ' ' ∧ c ≠ '-') (wordStart : Bool) (rest : Text) :
    scan known wordStart 0 (word ++ c :: rest) = scan known (!continuesWord c) 0 rest := by
  induction word generalizing wordStart with
  | nil => exact scan_of_phrase?_eq_none (phrase?_word hword hc hend rest) wordStart
  | cons d word ih =>
    have hnone := phrase?_word hword hc hend rest
    have hend' : word = [] ∨ c ≠ ' ' ∧ c ≠ '-' := .inr (hend.resolve_left (List.cons_ne_nil _ _))
    rw [List.forall_mem_cons] at hword
    rw [List.cons_append] at hnone ⊢
    rw [scan_of_phrase?_eq_none hnone]
    exact ih hword.2 hend' _

/-! ### Phrases in front of names -/

/-- A capital letter, and letters and digits behind it. -/
def IsName : Text → Prop
  | [] => False
  | c :: rest => c.isUpper = true ∧ ∀ d ∈ rest, d.isAlphanum = true

instance : (name : Text) → Decidable (IsName name)
  | [] => inferInstanceAs (Decidable False)
  | _ :: _ => inferInstanceAs (Decidable (_ ∧ _))

theorem IsName.ne_nil {name : Text} (h : IsName name) : name ≠ [] := by
  rintro rfl
  exact h

theorem IsName.isAlphanum {name : Text} (h : IsName name) : ∀ c ∈ name, c.isAlphanum = true := by
  cases name with
  | nil => exact List.forall_mem_nil _
  | cons c rest =>
    refine List.forall_mem_cons.mpr ⟨?_, h.2⟩
    simp [Char.isAlphanum, Char.isAlpha, h.1]

theorem IsName.isWord {name : Text} (h : IsName name) : IsWord name :=
  ⟨h.ne_nil, fun c hc => Label.isWhite_of_isIdChar
    (Label.isIdChar_of_isAsciiAlphanum (h.isAlphanum c hc))⟩

variable {phrase : Phrase} {target : String}

theorem eq_of_append_eq {name front rest after : Text} (hname : IsName name) (hfront : '.' ∉ front)
    (hends : endsWord after = true) (h : name ++ '.' :: rest = front ++ after) :
    front = name ∧ after = '.' :: rest := by
  obtain ⟨extra, rfl, hextra⟩ | ⟨extra, rfl, hextra⟩ := List.append_eq_append_iff.mp h
  · cases extra with
    | nil => exact ⟨List.append_nil name, hextra.symm⟩
    | cons d extra =>
      obtain ⟨rfl, -⟩ := List.cons.inj hextra
      simp at hfront
  · cases extra with
    | nil => exact ⟨(List.append_nil front).symm, hextra⟩
    | cons d extra =>
      have hd : d.isAlphanum = true := hname.isAlphanum d (by simp)
      rw [hextra] at hends
      simp [endsWord, continuesWord, isAlphanumeric_of_isAlphanum hd] at hends

/-- Another phrase that is not shorter begins with the first one. -/
theorem begins_of_afterPhrase? {other : Phrase} {behind after : Text}
    (hphrase : phrase ∈ Phrase.all) (hother : other ∈ Phrase.all)
    (hlength : phrase.text.length ≤ other.text.length)
    (h : afterPhrase? (phrase.text.toList ++ behind) other = some after) :
    endsWord after = true ∧ phrase.text.toList <+: other.text.toList ∧
      ∃ matched, phrase.text.toList ++ behind = matched ++ after ∧
        matched.map Char.toLower = other.text.toList := by
  rw [afterPhrase?] at h
  split at h
  · rename_i rest hstrip
    split at h
    · rename_i hends
      obtain rfl := Option.some.inj h
      obtain ⟨matched, htext, hmatched⟩ := stripPrefixNoCase?_eq_some_iff.mp hstrip
      rw [Phrase.map_toLower_text other hother] at hmatched
      refine ⟨hends, ?_, matched, htext, hmatched⟩
      have hlower := congrArg (List.map Char.toLower) htext
      rw [List.map_append, List.map_append, Phrase.map_toLower_text phrase hphrase, hmatched]
        at hlower
      refine List.prefix_of_prefix_length_le ⟨_, hlower⟩ (List.prefix_append _ _) ?_
      rwa [String.length_toList, String.length_toList]
    · contradiction
  · contradiction

/-- Another phrase that is not shorter goes on behind the first one, in one of two ways. -/
theorem extension_of_afterPhrase? {other : Phrase} {behind after : Text}
    (hphrase : phrase ∈ Phrase.all) (hother : other ∈ Phrase.all)
    (hlength : phrase.text.length ≤ other.text.length)
    (h : afterPhrase? (phrase.text.toList ++ behind) other = some after) :
    endsWord after = true ∧ (other = phrase ∨ ∃ extra, behind = extra ++ after ∧
      (extra.map Char.toLower = " or more".toList ∨ extra.map Char.toLower = " many".toList)) := by
  obtain ⟨hends, hbegins, matched, htext, hmatched⟩ :=
    begins_of_afterPhrase? hphrase hother hlength h
  have hextra : ∀ more, other.text.toList = phrase.text.toList ++ more →
      ∃ extra, behind = extra ++ after ∧ extra.map Char.toLower = more := by
    intro more hmore
    rw [hmore] at hmatched
    obtain ⟨same, extra, rfl, hsame, hextra⟩ := List.map_eq_append_iff.mp hmatched
    have hlength : phrase.text.toList.length = same.length := by
      rw [← hsame, List.length_map]
    rw [List.append_assoc] at htext
    exact ⟨extra, (List.append_inj htext hlength).2, hextra⟩
  refine ⟨hends, ?_⟩
  obtain heq | hmore | hmany := Phrase.extension_of_begins phrase hphrase other hother hbegins
  · exact .inl heq
  · obtain ⟨extra, hbehind, hlower⟩ := hextra _ hmore
    exact .inr ⟨extra, hbehind, .inl hlower⟩
  · obtain ⟨extra, hbehind, hlower⟩ := hextra _ hmany
    exact .inr ⟨extra, hbehind, .inr hlower⟩

/-- A phrase is read where no other one that is not shorter can be read. -/
theorem phrase?_of_only {behind : Text} (hphrase : phrase ∈ Phrase.all)
    (hends : endsWord behind = true)
    (honly : ∀ other ∈ Phrase.all, phrase.text.length ≤ other.text.length → ∀ after,
      afterPhrase? (phrase.text.toList ++ behind) other = some after → other = phrase) :
    phrase? (phrase.text.toList ++ behind) = some (phrase, behind) := by
  obtain ⟨front, back, hall⟩ := List.append_of_mem hphrase
  have hpairs := Phrase.all_longest_first
  have hnodup : Phrase.all.Nodup := by decide
  rw [hall, List.pairwise_append] at hpairs
  rw [hall, List.nodup_append] at hnodup
  have hself : afterPhrase? (phrase.text.toList ++ behind) phrase = some behind := by
    rw [afterPhrase?, stripPrefixNoCase?_eq_some_iff.mpr ⟨_, rfl, rfl⟩]
    exact if_pos hends
  rw [phrase?, List.findSome?_eq_some_iff]
  refine ⟨front, phrase, back, hall, by rw [hself]; rfl, fun other hother => ?_⟩
  rw [Option.map_eq_none_iff, Option.eq_none_iff_forall_not_mem]
  intro after hafter
  have hmem : other ∈ Phrase.all := hall ▸ List.mem_append_left _ hother
  have hlength := hpairs.2.2 other hother phrase List.mem_cons_self
  exact hnodup.2.2 other hother phrase List.mem_cons_self (honly other hmem hlength after hafter)

/-- No name makes a longer phrase of the one in front of it. -/
theorem eq_of_afterPhrase? {other : Phrase} {rest after : Text} (hphrase : phrase ∈ Phrase.all)
    (hother : other ∈ Phrase.all) (hlength : phrase.text.length ≤ other.text.length)
    (htarget : IsName target.toList)
    (hmany : equalsNoCase target.toList "many".toList = false)
    (h : afterPhrase? (phrase.text.toList ++ ' ' :: (target.toList ++ '.' :: rest)) other =
      some after) : other = phrase := by
  obtain ⟨hends, heq | ⟨extra, hextra, hlower⟩⟩ :=
    extension_of_afterPhrase? hphrase hother hlength h
  · exact heq
  · have hpoint : ∀ {word lower : Text}, word.map Char.toLower = lower → '.' ∉ lower →
        '.' ∉ word := by
      rintro word lower rfl hlower hmem
      exact hlower (List.mem_map_of_mem hmem)
    have hword : ∃ word, target.toList ++ '.' :: rest = word ++ after ∧
        (word.map Char.toLower = "or".toList ++ ' ' :: "more".toList ∨
          word.map Char.toLower = "many".toList) := by
      obtain hmore | hmany := hlower
      · obtain ⟨space, word, rfl, -, hword⟩ :=
          List.map_eq_cons_iff.mp (hmore.trans (rfl : _ = ' ' :: "or more".toList))
        exact ⟨word, (List.cons.inj hextra).2, .inl hword⟩
      · obtain ⟨space, word, rfl, -, hword⟩ :=
          List.map_eq_cons_iff.mp (hmany.trans (rfl : _ = ' ' :: "many".toList))
        exact ⟨word, (List.cons.inj hextra).2, .inr hword⟩
    obtain ⟨word, hsplit, hmore | hword⟩ := hword
    -- A name goes up to its full stop: it would have to be `or`, and a space does not follow it.
    · obtain ⟨first, later, rfl, hfirst, hlater⟩ := List.map_eq_append_iff.mp hmore
      obtain ⟨space, later, rfl, hspace, -⟩ := List.map_eq_cons_iff.mp hlater
      obtain rfl := eq_of_toLower_eq rfl hspace
      rw [List.append_assoc] at hsplit
      have hcontra := (eq_of_append_eq htarget (hpoint hfirst (by decide)) rfl hsplit).2
      simp at hcontra
    -- Here it would have to be `many`.
    · obtain ⟨rfl, -⟩ := eq_of_append_eq htarget (hpoint hword (by decide)) hends hsplit
      rw [equalsNoCase, hword] at hmany
      contradiction

theorem phrase?_append (hphrase : phrase ∈ Phrase.all) (htarget : IsName target.toList)
    (hmany : equalsNoCase target.toList "many".toList = false) (rest : Text) :
    phrase? (phrase.text.toList ++ ' ' :: (target.toList ++ '.' :: rest)) =
      some (phrase, ' ' :: (target.toList ++ '.' :: rest)) :=
  phrase?_of_only hphrase rfl fun _ hother hlength _ hafter =>
    eq_of_afterPhrase? hphrase hother hlength htarget hmany hafter

theorem nameAt?_append (hknown : ∀ name ∈ known, IsName name.toList) (htarget : target ∈ known)
    (rest : Text) : nameAt? known (target.toList ++ '.' :: rest) = some (target, '.' :: rest) := by
  cases hfound : nameAt? known (target.toList ++ '.' :: rest) with
  | none =>
    have hnone := List.findSome?_eq_none_iff.mp hfound target htarget
    rw [stripPrefix?_append] at hnone
    contradiction
  | some found =>
    obtain ⟨name, after⟩ := found
    obtain ⟨hname, htext, hends⟩ := of_nameAt?_eq_some hfound
    have hpoint : '.' ∉ name.toList :=
      fun hmem => absurd ((hknown name hname).isAlphanum '.' hmem) (by decide)
    obtain ⟨heq, rfl⟩ := eq_of_append_eq (hknown target htarget) hpoint hends htext
    rw [String.toList_injective heq]

theorem at?_append (hphrase : phrase ∈ Phrase.all) (hknown : ∀ name ∈ known, IsName name.toList)
    (htarget : target ∈ known) (hmany : equalsNoCase target.toList "many".toList = false)
    (rest : Text) :
    at? known (phrase.text.toList ++ ' ' :: (target.toList ++ '.' :: rest)) =
      some (.resolved target phrase, '.' :: rest) := by
  have hname := hknown target htarget
  have hspace : ∀ c ∈ [' '], isWhite c = true := by decide
  have hhead : ∀ c ∈ (target.toList ++ '.' :: rest).head?, isWhite c = false := by
    intro c hc
    rw [List.head?_append_of_ne_nil _ hname.ne_nil] at hc
    exact hname.isWord.2 c (List.mem_of_mem_head? hc)
  have hstart : trimStart (' ' :: (target.toList ++ '.' :: rest)) = target.toList ++ '.' :: rest :=
    trimStart_append hspace hhead
  have hfound : nameAt? known (trimStart (' ' :: (target.toList ++ '.' :: rest))) =
      some (target, '.' :: rest) := by
    rw [hstart, nameAt?_append hknown htarget]
  rw [at?, phrase?_append hphrase hname hmany]
  dsimp only
  rw [resolve_of_nameAt?_eq_some hfound]

theorem exists_scan_skip (known : List String) (wordStart : Bool) (front rest : Text) :
    ∃ wordStart', scan known wordStart front.length (front ++ rest) =
      scan known wordStart' 0 rest := by
  induction front generalizing wordStart with
  | nil => exact ⟨wordStart, rfl⟩
  | cons c front ih => exact ih _

/-- A mention is read where it stands, and reading goes on behind it. -/
theorem exists_scan_of_at? {mention : Mention} {front rest : Text}
    (h : at? known (c :: (front ++ rest)) = some (mention, rest)) :
    ∃ wordStart, scan known true 0 (c :: (front ++ rest)) =
      mention :: scan known wordStart 0 rest := by
  obtain ⟨wordStart, hskip⟩ := exists_scan_skip known (!continuesWord c) front rest
  refine ⟨wordStart, ?_⟩
  rw [scan, if_pos rfl, h]
  dsimp only
  rw [List.length_append, Nat.add_sub_cancel, hskip]

theorem scan_sentence (hphrase : phrase ∈ Phrase.all)
    (hknown : ∀ name ∈ known, IsName name.toList) (htarget : target ∈ known)
    (hmany : equalsNoCase target.toList "many".toList = false) (rest : Text) :
    scan known true 0 (phrase.text.toList ++ ' ' :: (target.toList ++ '.' :: rest)) =
      .resolved target phrase :: scan known true 0 rest := by
  have hmention := at?_append hphrase hknown htarget hmany rest
  have hpoint : ∀ wordStart, scan known wordStart 0 ('.' :: rest) = scan known true 0 rest :=
    fun wordStart => scan_word (List.forall_mem_nil _) rfl (.inl rfl) wordStart rest
  obtain ⟨letters, separator, more, hsplit, hne, -⟩ := Phrase.exists_word hphrase
  obtain ⟨c, letters, rfl⟩ := List.exists_cons_of_ne_nil hne
  obtain ⟨front, hfront⟩ : ∃ front, phrase.text.toList ++ ' ' :: (target.toList ++ '.' :: rest) =
      c :: (front ++ '.' :: rest) :=
    ⟨letters ++ separator :: more ++ ' ' :: target.toList, by simp [hsplit]⟩
  rw [hfront] at hmention ⊢
  obtain ⟨wordStart, hscan⟩ := exists_scan_of_at? hmention
  rw [hscan, hpoint]

/-! ### Prose without marks -/

theorem plainProse_append_cons (hc : c ≠ '*' ∧ c ≠ '_' ∧ c ≠ '\x60') (before after : Text) :
    plainProse (before ++ c :: after) = plainProse before ++ c :: plainProse after := by
  have hmarks : c ∉ "**".toList ∧ c ∉ "__".toList := by
    simp [hc]
  rw [plainProse, replaceAll_append_cons (by decide) hmarks.1,
    replaceAll_append_cons (by decide) hmarks.2, remove, List.filter_append,
    List.filter_cons_of_pos (by simp [hc])]
  rfl

theorem plainProse_append_span (before after : Text) :
    plainProse (before ++ '\x60' :: after) = plainProse before ++ plainProse after := by
  rw [plainProse, replaceAll_append_cons (by decide) (by decide),
    replaceAll_append_cons (by decide) (by decide), remove, List.filter_append,
    List.filter_cons_of_neg (by decide)]
  rfl

theorem plainProse_of_plain {text : Text} (h : ∀ c ∈ text, c ≠ '*' ∧ c ≠ '_' ∧ c ≠ '\x60') :
    plainProse text = text := by
  have hstar : replaceAll "**".toList [] text = text :=
    replaceAll_of_not_mem fun hmem => (h '*' hmem).1 rfl
  have hline : replaceAll "__".toList [] text = text :=
    replaceAll_of_not_mem fun hmem => (h '_' hmem).2.1 rfl
  rw [plainProse, hstar, hline, remove, List.filter_eq_self]
  intro c hc
  simp [h c hc]

@[simp] theorem plainProse_nil : plainProse [] = [] :=
  plainProse_of_plain (List.forall_mem_nil _)

theorem plainProse_cons (hc : c ≠ '*' ∧ c ≠ '_' ∧ c ≠ '\x60') (after : Text) :
    plainProse (c :: after) = c :: plainProse after := by
  have happend := plainProse_append_cons hc [] after
  rwa [plainProse_nil] at happend

theorem plainProse_cons_span (after : Text) : plainProse ('\x60' :: after) = plainProse after := by
  have happend := plainProse_append_span [] after
  rwa [plainProse_nil] at happend

theorem replaceAll_sublist (pattern text : Text) : (replaceAll pattern [] text).Sublist text := by
  fun_induction replaceAll pattern [] text with
  | case1 => exact List.Sublist.slnil
  | case2 c rest hbegins ih =>
    rw [List.nil_append]
    exact (ih.trans (List.drop_sublist _ rest)).cons c
  | case3 c rest hbegins ih => exact ih.cons_cons c

theorem plainProse_sublist (text : Text) : (plainProse text).Sublist text :=
  List.filter_sublist.trans ((replaceAll_sublist _ _).trans (replaceAll_sublist _ text))

theorem mem_of_mem_plainProse {text : Text} (h : c ∈ plainProse text) : c ∈ text :=
  (plainProse_sublist text).subset h

end Mention

end DiagramSync
