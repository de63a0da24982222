import DiagramSync.Proofs.Text.Pieces
import DiagramSync.Update
import Mathlib.Data.List.Forall2

/-!
Carrying out edits that follow each other without overlapping: every cut of the document is
in order and between two characters, and the result is the document with one patch for each
edit and all else copied.
-/

namespace DiagramSync

open Text

/-! ### Checked cuts -/

namespace Text

/-- Returns `true` if the offset is between two characters of the text or at one of its ends. -/
def isBoundary (offset : Nat) : Text → Bool
  | [] => offset == 0
  | c :: cs => offset == 0 || (c.utf8Size ≤ offset && isBoundary (offset - c.utf8Size) cs)

theorem isBoundary_iff {offset : Nat} {text : Text} :
    isBoundary offset text = true ↔
      ∃ before after, text = before ++ after ∧ size before = offset := by
  induction text generalizing offset with
  | nil =>
    rw [isBoundary, beq_iff_eq]
    constructor
    · rintro rfl
      exact ⟨[], [], rfl, rfl⟩
    · rintro ⟨before, after, htext, rfl⟩
      rw [(List.append_eq_nil_iff.mp htext.symm).1, size_nil]
  | cons c cs ih =>
    have hpos := c.utf8Size_pos
    rw [isBoundary, Bool.or_eq_true, Bool.and_eq_true, beq_iff_eq, decide_eq_true_eq, ih]
    constructor
    · rintro (rfl | ⟨hle, before, after, rfl, hsize⟩)
      · exact ⟨[], c :: cs, rfl, rfl⟩
      · exact ⟨c :: before, after, rfl, by rw [size_cons]; omega⟩
    · rintro ⟨before, after, htext, rfl⟩
      cases before with
      | nil => exact .inl rfl
      | cons d before =>
        rw [List.cons_append, List.cons.injEq] at htext
        obtain ⟨rfl, rfl⟩ := htext
        exact .inr ⟨by simp, before, after, rfl, by simp⟩

/-- The bytes from `start` to `stop`, or nothing if these are out of order, out of bounds or
inside of a character. -/
def slice? (start stop : Nat) (text : Text) : Option Text :=
  if start ≤ stop ∧ isBoundary start text ∧ isBoundary stop text then
    some (slice start stop text)
  else
    none

theorem slice?_append (a b c : Text) :
    slice? (size a) (size a + size b) (a ++ (b ++ c)) = some b := by
  have hstart : isBoundary (size a) (a ++ (b ++ c)) = true :=
    isBoundary_iff.mpr ⟨a, b ++ c, rfl, rfl⟩
  have hstop : isBoundary (size a + size b) (a ++ (b ++ c)) = true :=
    isBoundary_iff.mpr ⟨a ++ b, c, by simp, by simp⟩
  rw [slice?, if_pos ⟨by omega, hstart, hstop⟩, slice_append]

theorem slice?_front (a b : Text) : slice? 0 (size a) (a ++ b) = some a := by
  have hcut := slice?_append [] a b
  rwa [size_nil, Nat.zero_add, List.nil_append] at hcut

/-- The text behind a cut: there is one where the offset is between two characters. -/
theorem slice?_size_eq_some_iff {offset : Nat} {text rest : Text} :
    slice? offset (size text) text = some rest ↔
      ∃ before, text = before ++ rest ∧ size before = offset := by
  constructor
  · intro h
    rw [slice?] at h
    split at h
    · rename_i hcut
      obtain ⟨before, after, rfl, rfl⟩ := isBoundary_iff.mp hcut.2.1
      obtain rfl := Option.some.inj h
      have hslice := slice_append before after []
      rw [List.append_nil, ← size_append] at hslice
      exact ⟨before, by rw [hslice], rfl⟩
    · contradiction
  · rintro ⟨before, rfl, rfl⟩
    have hcut := slice?_append before rest []
    rwa [List.append_nil, ← size_append] at hcut

end Text

namespace Update

/-- Carries the edits out, or stops at the first cut of the document that cannot be made. -/
def carryOut? (document written : Text) (cursor : Nat) : List Edit → Option Text
  | [] => (slice? cursor (size document) document).map (written ++ ·)
  | .replace range text :: rest => do
    let kept ← slice? cursor range.start document
    carryOut? document (written ++ kept ++ text) range.stop rest
  | .insert offset block :: rest => do
    let kept ← slice? cursor offset document
    let written := written ++ kept
    let gap := if offset < size document then ['\n'] else []
    carryOut? document (written ++ separator written ++ block ++ gap) offset rest

/-- The document after the edits, if every cut can be made. -/
def perform? (document : Text) (edits : List Edit) : Option Text :=
  carryOut? document [] 0 (edits.mergeSort fun first second => first.offset ≤ second.offset)

end Update

/-! ### Patches -/

/-- A change of a text: what stands at an offset, and what stands there afterwards. -/
structure Patch where
  offset : Nat
  old : Text
  new : Text
  deriving Repr, DecidableEq

/-- The second text is the first one, which begins at the offset `start`, with the patches in
their places and everything else kept. -/
inductive Patched : Nat → List Patch → Text → Text → Prop where
  | done (start : Nat) (rest : Text) : Patched start [] rest rest
  | patch {start : Nat} {patches : List Patch} {rest rest' : Text} (kept : Text) (patch : Patch) :
      patch.offset = start + size kept →
      Patched (start + size kept + size patch.old) patches rest rest' →
      Patched start (patch :: patches) (kept ++ (patch.old ++ rest))
        (kept ++ (patch.new ++ rest'))

namespace Edit

/-- Where the part of the document that the edit takes away ends. -/
def stop : Edit → Nat
  | .replace range _ => range.stop
  | .insert offset _ => offset

/-- The edit is about a part of the document. -/
def Within (document : Text) (edit : Edit) : Prop :=
  ∃ before old after, document = before ++ (old ++ after) ∧ edit.offset = size before ∧
    edit.stop = size before + size old

/-- The patch that an edit comes to. How many line feeds set a new region off depends on what
is written in front of it. -/
inductive Brings (document : Text) : Edit → Patch → Prop where
  | replace (range : Span) (text : Text) :
      Brings document (.replace range text)
        ⟨range.start, slice range.start range.stop document, text⟩
  | insert (offset : Nat) (block : Text) (feeds : Nat) : feeds ≤ 2 →
      Brings document (.insert offset block)
        ⟨offset, [], List.replicate feeds '\n' ++ block ++
          (if offset < size document then ['\n'] else [])⟩

end Edit

namespace Update

theorem exists_separator_eq (written : Text) :
    ∃ feeds ≤ 2, separator written = List.replicate feeds '\n' := by
  rw [separator]
  split
  · split
    · exact ⟨0, by omega, rfl⟩
    · exact ⟨1, by omega, rfl⟩
  · split
    · exact ⟨0, by omega, rfl⟩
    · exact ⟨2, by omega, rfl⟩

/-- An edit keeps what is in front of it and comes to a patch. -/
theorem exists_patch {document front kept old after : Text} {edit : Edit}
    (hsplit : document = front ++ kept ++ (old ++ after))
    (hoffset : edit.offset = size front + size kept)
    (hstop : edit.stop = size front + size kept + size old) (written : Text) (edits : List Edit) :
    ∃ text, Edit.Brings document edit ⟨size front + size kept, old, text⟩ ∧
      carryOut document written (size front) (edit :: edits) =
        carryOut document (written ++ (kept ++ text)) (size front + size kept + size old) edits ∧
      carryOut? document written (size front) (edit :: edits) =
        carryOut? document (written ++ (kept ++ text)) (size front + size kept + size old)
          edits := by
  have hkept : slice (size front) (size front + size kept) document = kept := by
    rw [hsplit, List.append_assoc, slice_append]
  have hkept? : slice? (size front) (size front + size kept) document = some kept := by
    rw [hsplit, List.append_assoc, slice?_append]
  cases edit with
  | replace range text =>
    obtain ⟨start, stop⟩ := range
    obtain ⟨rfl, rfl⟩ : start = size front + size kept ∧
      stop = size front + size kept + size old := ⟨hoffset, hstop⟩
    have hold : slice (size front + size kept) (size front + size kept + size old) document =
        old := by
      rw [hsplit, ← size_append, slice_append]
    have hpatch := @Edit.Brings.replace document
      ⟨size front + size kept, size front + size kept + size old⟩ text
    rw [hold] at hpatch
    refine ⟨text, hpatch, ?_, ?_⟩
    · rw [carryOut, hkept, List.append_assoc]
    · simp only [carryOut?, hkept?, Option.bind_eq_bind, Option.bind_some, List.append_assoc]
  | insert offset block =>
    obtain rfl : offset = size front + size kept := hoffset
    obtain rfl : old = [] := by
      rw [← size_eq_zero]
      simp only [Edit.stop] at hstop
      omega
    obtain ⟨feeds, hfeeds, hseparator⟩ := exists_separator_eq (written ++ kept)
    refine ⟨_, .insert _ block feeds hfeeds, ?_, ?_⟩
    · rw [carryOut, hkept, hseparator, size_nil, Nat.add_zero]
      simp only [List.append_assoc]
    · simp only [carryOut?, hkept?, hseparator, Option.bind_eq_bind, Option.bind_some, size_nil,
        Nat.add_zero, List.append_assoc]

/-- Edits in the order of their places come to patches, from any cursor in front of them on. -/
theorem carryOut_patched (document : Text) (edits : List Edit) (front rest written : Text)
    (hdocument : document = front ++ rest) (hwithin : ∀ edit ∈ edits, edit.Within document)
    (horder : edits.Pairwise fun first second => first.stop ≤ second.offset)
    (hcursor : ∀ edit ∈ edits, size front ≤ edit.offset) :
    ∃ patches new, List.Forall₂ (Edit.Brings document) edits patches ∧
      Patched (size front) patches rest new ∧
      carryOut document written (size front) edits = written ++ new ∧
      carryOut? document written (size front) edits = some (written ++ new) := by
  induction edits generalizing front rest written with
  | nil =>
    refine ⟨[], rest, .nil, .done _ _, ?_, ?_⟩
    · rw [carryOut, hdocument, dropBytes_size_append]
    · have hslice := slice?_append front rest []
      rw [List.append_nil, ← size_append, ← hdocument] at hslice
      rw [carryOut?, hslice]
      rfl
  | cons edit edits ih =>
    rw [List.forall_mem_cons] at hwithin hcursor
    rw [List.pairwise_cons] at horder
    obtain ⟨before, old, after, hsplit, hoffset, hstop⟩ := hwithin.1
    obtain ⟨kept, rfl, rfl⟩ :=
      append_eq_append_of_size_le (hdocument.symm.trans hsplit) (hoffset ▸ hcursor.1)
    rw [size_append] at hoffset hstop
    obtain ⟨text, hbrings, hstep, hstep?⟩ := exists_patch hsplit hoffset hstop written edits
    obtain ⟨patches, new, hforall, hpatched, hout, hout?⟩ :=
      ih (front ++ kept ++ old) after (written ++ (kept ++ text)) (by simpa using hsplit)
        hwithin.2 horder.2 (by simpa [hstop, Nat.add_assoc] using horder.1)
    rw [size_append, size_append] at hpatched hout hout?
    refine ⟨⟨size front + size kept, old, text⟩ :: patches, kept ++ (text ++ new),
      .cons hbrings hforall, .patch kept ⟨_, old, text⟩ rfl hpatched, ?_, ?_⟩
    · rw [hstep, hout]
      simp only [List.append_assoc]
    · rw [hstep?, hout?]
      simp only [List.append_assoc]

end Update
end DiagramSync
