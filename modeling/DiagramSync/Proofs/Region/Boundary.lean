import DiagramSync.Proofs.Region.Layout

/-!
Places in a layout: where its stretches meet, and where its regions lie. No line ends in
the middle of a stretch outside of regions.
-/

namespace DiagramSync.Layout

open Text

/-! ### Splits -/

theorem split_cases {before after before' after' : Layout} {stretch stretch' : Stretch}
    (h : before ++ stretch :: after = before' ++ stretch' :: after') :
    (before = before' ∧ stretch = stretch' ∧ after = after') ∨
    (∃ middle, before' = before ++ stretch :: middle ∧ after = middle ++ stretch' :: after') ∨
    (∃ middle, before = before' ++ stretch' :: middle ∧ after' = middle ++ stretch :: after) := by
  obtain ⟨middle, hbefore, hafter⟩ | ⟨middle, hbefore, hafter⟩ := List.append_eq_append_iff.mp h
  · cases middle with
    | nil =>
      rw [List.nil_append, List.cons.injEq] at hafter
      exact .inl ⟨by simpa using hbefore.symm, hafter⟩
    | cons first middle =>
      rw [List.cons_append, List.cons.injEq] at hafter
      exact .inr (.inl ⟨middle, hafter.1 ▸ hbefore, hafter.2⟩)
  · cases middle with
    | nil =>
      rw [List.nil_append, List.cons.injEq] at hafter
      exact .inl ⟨by simpa using hbefore, hafter.1.symm, hafter.2.symm⟩
    | cons first middle =>
      rw [List.cons_append, List.cons.injEq] at hafter
      exact .inr (.inr ⟨middle, hafter.1 ▸ hbefore, hafter.2⟩)

theorem split_at {before after before' after' : Layout} {stretch : Stretch}
    (h : before ++ after = before' ++ stretch :: after') :
    (∃ middle, before' = before ++ middle ∧ after = middle ++ stretch :: after') ∨
    (∃ middle, before = before' ++ stretch :: middle ∧ after' = middle ++ after) := by
  obtain ⟨middle, hbefore, hafter⟩ | ⟨middle, hbefore, hafter⟩ := List.append_eq_append_iff.mp h
  · exact .inl ⟨middle, hbefore, hafter⟩
  · cases middle with
    | nil => exact .inl ⟨[], by simpa using hbefore.symm, by simpa using hafter.symm⟩
    | cons first middle =>
      rw [List.cons_append, List.cons.injEq] at hafter
      exact .inr ⟨middle, hafter.1 ▸ hbefore, hafter.2⟩

/-- Where stretches meet at an offset, they meet at no other place of that offset or a
smaller one behind it. -/
theorem split_of_size_le {before after before' after' : Layout}
    (hproper : Proper (before ++ after)) (h : before ++ after = before' ++ after')
    (hsize : size (text before) ≤ size (text before')) :
    ∃ middle, before' = before ++ middle ∧ after = middle ++ after' := by
  obtain ⟨middle, hbefore, hafter⟩ | ⟨middle, hbefore, hafter⟩ := List.append_eq_append_iff.mp h
  · exact ⟨middle, hbefore, hafter⟩
  · have hnil : middle = [] := by
      rw [hbefore, List.append_assoc, proper_append, proper_append] at hproper
      by_contra hne
      have hpos := text_ne_nil hproper.2.2.1 hne
      rw [ne_eq, ← size_eq_zero] at hpos
      rw [hbefore, text_append, size_append] at hsize
      omega
    subst hnil
    exact ⟨[], by simpa using hbefore.symm, by simpa using hafter.symm⟩

/-! ### Regions -/

theorem regions_append (start : Nat) (a b : Layout) :
    regions start (a ++ b) = regions start a ++ regions (start + size (text a)) b := by
  induction a generalizing start with
  | nil => rfl
  | cons stretch rest ih =>
    cases stretch with
    | plain piece => simp [regions, ih, Stretch.text, Nat.add_assoc]
    | region name opener content closer => simp [regions, ih, Stretch.text, Nat.add_assoc]

theorem map_name_regions (start : Nat) (layout : Layout) :
    (regions start layout).map Region.name = names layout := by
  induction layout generalizing start with
  | nil => rfl
  | cons stretch rest ih =>
    cases stretch with
    | plain piece => exact ih _
    | region name opener content closer =>
      rw [regions, List.map_cons, ih, names_region]
      rfl

theorem exists_split_of_mem_regions {start : Nat} {layout : Layout} {region : Region}
    (h : region ∈ regions start layout) :
    ∃ before name opener content closer after,
      layout = before ++ .region name opener content closer :: after ∧
      region = .placed (start + size (text before)) name opener content closer := by
  induction layout generalizing start with
  | nil => simp [regions] at h
  | cons stretch rest ih =>
    have hlater : ∀ {next}, region ∈ regions next rest → next = start + size stretch.text →
        ∃ before name opener content closer after,
          stretch :: rest = before ++ .region name opener content closer :: after ∧
          region = .placed (start + size (text before)) name opener content closer := by
      rintro next hmem rfl
      obtain ⟨before, name, opener, content, closer, after, rfl, rfl⟩ := ih hmem
      exact ⟨stretch :: before, name, opener, content, closer, after, rfl, by
        simp [Nat.add_assoc]⟩
    cases stretch with
    | plain piece => exact hlater h rfl
    | region name opener content closer =>
      rw [regions, List.mem_cons] at h
      obtain rfl | h := h
      · exact ⟨[], name, opener, content, closer, rest, rfl, by simp⟩
      · exact hlater h rfl

theorem placed_mem_regions (start : Nat) (before after : Layout) (name : String)
    (opener content : Text) (closer : Option Text) :
    .placed (start + size (text before)) name opener content closer ∈
      regions start (before ++ .region name opener content closer :: after) := by
  rw [regions_append, regions]
  simp

/-! ### Ends of lines -/

/-- Stretches meet at the offset. -/
def Meets (layout : Layout) (offset : Nat) : Prop :=
  ∃ before after, layout = before ++ after ∧ size (text before) = offset

/-- The offset is strictly inside of a region. -/
def Inside (layout : Layout) (offset : Nat) : Prop :=
  ∃ before name opener content closer after,
    layout = before ++ .region name opener content closer :: after ∧
    size (text before) < offset ∧
    offset < size (text before) + size (Stretch.region name opener content closer).text

theorem meets_or_inside_of_stretch {stretch : Stretch} (hmarked : stretch.Marked) (rest : Layout)
    {before after : List Text} (h : stretch.pieces = before ++ after) :
    Meets (stretch :: rest) (size before.flatten) ∨
      Inside (stretch :: rest) (size before.flatten) := by
  have htext : stretch.text = before.flatten ++ after.flatten := by
    rw [← flatten_pieces stretch.text, Stretch.pieces_text hmarked, h, List.flatten_append]
  have hpos : ∀ part : List Text, part ≠ [] → (∀ piece ∈ part, piece ∈ stretch.pieces) →
      0 < size part.flatten := by
    intro part hne hpart
    obtain ⟨piece, others, rfl⟩ := List.exists_cons_of_ne_nil hne
    have hpiece := isPiece_of_mem
      (Stretch.pieces_text hmarked ▸ hpart piece (by simp) : piece ∈ Text.pieces stretch.text)
    have := hpiece.ne_nil
    rw [ne_eq, ← size_eq_zero] at this
    rw [List.flatten_cons, size_append]
    omega
  by_cases hbefore : before = []
  · subst hbefore
    exact .inl ⟨[], stretch :: rest, rfl, by simp⟩
  by_cases hafter : after = []
  · subst hafter
    exact .inl ⟨[stretch], rest, rfl, by simp [htext]⟩
  cases stretch with
  | plain piece =>
    have hlength := congrArg List.length h
    have hb := List.length_pos_iff.mpr hbefore
    have ha := List.length_pos_iff.mpr hafter
    simp only [Stretch.pieces, List.length_singleton, List.length_append] at hlength
    omega
  | region name opener content closer =>
    have hb := hpos before hbefore (by simp +contextual [h])
    have ha := hpos after hafter (by simp +contextual [h])
    refine .inr ⟨[], name, opener, content, closer, rest, rfl, by simpa using hb, ?_⟩
    rw [htext, size_append, text_nil, size_nil]
    omega

theorem Meets.cons {layout : Layout} {offset : Nat} (h : Meets layout offset)
    (stretch : Stretch) : Meets (stretch :: layout) (size stretch.text + offset) := by
  obtain ⟨before, after, rfl, rfl⟩ := h
  exact ⟨stretch :: before, after, rfl, by simp⟩

theorem Inside.cons {layout : Layout} {offset : Nat} (h : Inside layout offset)
    (stretch : Stretch) : Inside (stretch :: layout) (size stretch.text + offset) := by
  obtain ⟨before, name, opener, content, closer, after, rfl, hstart, hstop⟩ := h
  refine ⟨stretch :: before, name, opener, content, closer, after, rfl, ?_, ?_⟩
  · rw [text_cons, size_append]
    omega
  · rw [text_cons, size_append]
    omega

/-- A line ends where stretches meet or inside of a region. -/
theorem meets_or_inside {layout : Layout} (hproper : layout.Proper) {offset : Nat}
    (h : IsLineEnd (text layout) offset) : Meets layout offset ∨ Inside layout offset := by
  obtain ⟨before, after, hpieces, rfl⟩ := h
  rw [pieces_text hproper] at hpieces
  induction layout generalizing before with
  | nil =>
    obtain ⟨rfl, -⟩ := List.append_eq_nil_iff.mp hpieces.symm
    exact .inl ⟨[], [], rfl, rfl⟩
  | cons stretch rest ih =>
    obtain ⟨hmarked, -, hrest⟩ := hproper
    rw [List.flatMap_cons] at hpieces
    obtain ⟨middle, rfl, hafter⟩ | ⟨middle, hstretch, -⟩ :=
      List.append_eq_append_iff.mp hpieces
    · have hsize : size (stretch.pieces ++ middle).flatten =
          size stretch.text + size middle.flatten := by
        rw [List.flatten_append, size_append, ← Stretch.pieces_text hmarked, flatten_pieces]
      rw [hsize]
      exact (ih hrest middle hafter).imp (Meets.cons · stretch) (Inside.cons · stretch)
    · exact meets_or_inside_of_stretch hmarked rest hstretch

end DiagramSync.Layout
