import DiagramSync.Proofs.Entity.Relationship

/-!
Names are tried longest first. Of the names that a text begins with no two are equally long, so it
is the longest one that is found, and the order in which the names are listed does not matter for
what is mentioned.
-/

namespace DiagramSync

open Text

namespace Mention

/-- The text begins with the name, a word ends there, and `rest` follows. -/
def StandsAt (text : Text) (name : String) (rest : Text) : Prop :=
  text = name.toList ++ rest ∧ endsWord rest = true

variable {names names' : List String} {text rest : Text} {name : String}

/-! ### The first match -/

/-- In a list that is sorted by size the first match is one of the largest. -/
theorem exists_largest_of_findSome?_eq_some {α β : Type} {read? : α → Option β} {size : α → Nat}
    {list : List α} {found : β}
    (hsorted : list.Pairwise fun first second => size second ≤ size first)
    (h : list.findSome? read? = some found) :
    ∃ item ∈ list, read? item = some found ∧
      ∀ other ∈ list, (read? other).isSome = true → size other ≤ size item := by
  obtain ⟨front, item, back, rfl, hitem, hfront⟩ := List.findSome?_eq_some_iff.mp h
  refine ⟨item, by simp, hitem, fun other hother hread => ?_⟩
  obtain hother | hother := List.mem_append.mp hother
  · simp [hfront other hother] at hread
  · obtain rfl | hback := List.mem_cons.mp hother
    · exact le_rfl
    · exact (List.pairwise_cons.mp (List.pairwise_append.mp hsorted).2.1).1 other hback

/-- The name with what follows it, if it stands at the beginning of the text. -/
def readName? (text : Text) (name : String) : Option (String × Text) :=
  match stripPrefix? name.toList text with
  | some rest => if endsWord rest then some (name, rest) else none
  | none => none

theorem nameAt?_eq_findSome? (names : List String) (text : Text) :
    nameAt? names text = names.findSome? (readName? text) := rfl

theorem readName?_eq_some_iff {other : String} :
    readName? text other = some (name, rest) ↔ other = name ∧ StandsAt text name rest := by
  rw [readName?]
  constructor
  · intro h
    split at h
    · rename_i after hstrip
      split at h
      · rename_i hends
        obtain ⟨rfl, rfl⟩ := Prod.mk.inj (Option.some.inj h)
        exact ⟨rfl, stripPrefix?_eq_some_iff.mp hstrip, hends⟩
      · contradiction
    · contradiction
  · rintro ⟨rfl, rfl, hends⟩
    rw [stripPrefix?_append]
    exact if_pos hends

theorem isSome_readName?_iff :
    (readName? text name).isSome = true ↔ ∃ rest, StandsAt text name rest := by
  rw [Option.isSome_iff_exists]
  constructor
  · rintro ⟨⟨other, rest⟩, hread⟩
    obtain ⟨rfl, hstands⟩ := readName?_eq_some_iff.mp hread
    exact ⟨rest, hstands⟩
  · rintro ⟨rest, hstands⟩
    exact ⟨(name, rest), readName?_eq_some_iff.mpr ⟨rfl, hstands⟩⟩

theorem nameAt?_eq_none_iff :
    nameAt? names text = none ↔ ∀ name ∈ names, ∀ rest, ¬ StandsAt text name rest := by
  rw [nameAt?_eq_findSome?, List.findSome?_eq_none_iff]
  simp only [← Option.not_isSome_iff_eq_none, isSome_readName?_iff, not_exists]

/-! ### The longest name -/

theorem utf8ByteSize_eq_size (name : String) : name.utf8ByteSize = size name.toList := by
  have hlist : ∀ cs : List Char, String.utf8Len cs = size cs := by
    intro cs
    induction cs with
    | nil => rfl
    | cons c rest ih => rw [String.utf8Len_cons, size_cons, ih, Nat.add_comm]
  rw [← hlist, ← String.utf8ByteSize_ofList, String.ofList_toList]

theorem StandsAt.unique {other : String} {rest' : Text} (h : StandsAt text name rest)
    (hother : StandsAt text other rest') (hsize : name.utf8ByteSize = other.utf8ByteSize) :
    name = other ∧ rest = rest' := by
  rw [utf8ByteSize_eq_size, utf8ByteSize_eq_size] at hsize
  obtain ⟨middle, hlonger, hrest⟩ :=
    append_eq_append_of_size_le (h.1.symm.trans hother.1) hsize.le
  obtain rfl : middle = [] := by
    rw [← size_eq_zero]
    rw [hlonger, size_append] at hsize
    omega
  rw [List.append_nil] at hlonger
  exact ⟨String.toList_injective hlonger.symm, hrest⟩

/-- The name stands at the beginning of the text, and no longer one of the names does. -/
def LongestAt (names : List String) (text : Text) (name : String) (rest : Text) : Prop :=
  name ∈ names ∧ StandsAt text name rest ∧ ∀ other ∈ names, ∀ rest,
    StandsAt text other rest → other.utf8ByteSize ≤ name.utf8ByteSize

/-- The names in an order in which none stands behind a shorter one. -/
def LongestFirst (names known : List String) : Prop :=
  known.Perm names ∧
    known.Pairwise fun first second => second.utf8ByteSize ≤ first.utf8ByteSize

theorem longestFirst_bySize (names : List String) : LongestFirst names (Entity.bySize names) := by
  have hsorted : ((Entity.bySize names).Pairwise fun first second =>
      decide (second.utf8ByteSize ≤ first.utf8ByteSize) = true) := by
    apply List.pairwise_mergeSort
    · simp only [decide_eq_true_eq]
      omega
    · simp only [Bool.or_eq_true, decide_eq_true_eq]
      omega
  simp only [decide_eq_true_eq] at hsorted
  exact ⟨List.mergeSort_perm names _, hsorted⟩

/-- The longest one of the names that stand at the beginning of a text is found there. -/
theorem LongestFirst.nameAt?_eq_some_iff {known : List String} (h : LongestFirst names known) :
    nameAt? known text = some (name, rest) ↔ LongestAt names text name rest := by
  have hmem : ∀ {name}, name ∈ known ↔ name ∈ names := h.1.mem_iff
  have hfirst : ∀ {name rest}, nameAt? known text = some (name, rest) →
      LongestAt names text name rest := by
    intro name rest hfound
    obtain ⟨item, hitem, hread, hlargest⟩ := exists_largest_of_findSome?_eq_some h.2 hfound
    obtain ⟨rfl, hstands⟩ := readName?_eq_some_iff.mp hread
    refine ⟨hmem.mp hitem, hstands, fun other hother rest' hrest' => ?_⟩
    exact hlargest other (hmem.mpr hother) (isSome_readName?_iff.mpr ⟨rest', hrest'⟩)
  constructor
  · exact hfirst
  · rintro ⟨hname, hstands, hlongest⟩
    have hsome : nameAt? known text ≠ none :=
      fun hnone => nameAt?_eq_none_iff.mp hnone name (hmem.mpr hname) rest hstands
    obtain ⟨⟨other, after⟩, hfound⟩ := Option.ne_none_iff_exists'.mp hsome
    obtain ⟨hother, hafter, hlongest'⟩ := hfirst hfound
    have hle := hlongest other hother after hafter
    have hge := hlongest' name hname rest hstands
    obtain ⟨rfl, rfl⟩ := StandsAt.unique hafter hstands (le_antisymm hle hge)
    exact hfound

theorem nameAt?_bySize_eq_some_iff :
    nameAt? (Entity.bySize names) text = some (name, rest) ↔ LongestAt names text name rest :=
  (longestFirst_bySize names).nameAt?_eq_some_iff

/-! ### Names in another order -/

theorem nameAt?_bySize_congr (h : ∀ name, name ∈ names ↔ name ∈ names') :
    nameAt? (Entity.bySize names) = nameAt? (Entity.bySize names') := by
  funext text
  apply Option.ext
  rintro ⟨name, rest⟩
  rw [nameAt?_bySize_eq_some_iff, nameAt?_bySize_eq_some_iff, LongestAt, LongestAt]
  simp only [h]

theorem resolve_congr {known known' : List String} (h : nameAt? known = nameAt? known')
    (fillers : Nat) (text : Text) : resolve known fillers text = resolve known' fillers text := by
  induction fillers generalizing text with
  | zero => rw [resolve, resolve, h]
  | succ fillers ih =>
    rw [resolve, resolve, h]
    simp only [ih]

theorem scan_congr {known known' : List String} (h : nameAt? known = nameAt? known')
    (wordStart : Bool) (skip : Nat) (text : Text) :
    scan known wordStart skip text = scan known' wordStart skip text := by
  have hat : ∀ text, at? known text = at? known' text := by
    intro text
    simp only [at?, resolve_congr h]
  induction text generalizing wordStart skip with
  | nil => rfl
  | cons c rest ih =>
    cases skip with
    | succ skip => exact ih _ skip
    | zero =>
      rw [scan, scan, hat]
      simp only [ih]

end Mention

namespace Entity

/-- What is mentioned does not depend on the order in which the names are listed. -/
theorem mentionsIn_congr {names names' : List String}
    (h : ∀ name, name ∈ names ↔ name ∈ names') (entry : EntityEntry) :
    mentionsIn names entry = mentionsIn names' entry :=
  Mention.scan_congr (Mention.nameAt?_bySize_congr h) true 0 (Mention.plainProse entry.body)

end Entity

end DiagramSync
