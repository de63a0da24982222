import DiagramSync.Proofs.Update.Relayout

/-!
Edits in the order of their places fit the layout, as long as an open region is among those
that are replaced whenever a new one goes in behind it.
-/

namespace DiagramSync

open Text

/-- The edit is done with before the other one begins. A new region that is not in front of
another one's content is behind it. -/
def Edit.Precedes : Edit → Edit → Prop
  | .insert offset _, .replace range _ => offset < range.start
  | first, second => first.stop ≤ second.offset

namespace Update

section Layouts

variable {start : Nat} {diagram : Diagram} {edit : Edit}

/-- Behind a new region the edits are about what is behind it in the layout. -/
theorem Placed.after_insert {before after : Layout} (hproper : Layout.Proper (before ++ after))
    (h : Placed start (before ++ after) diagram edit) {block : Text}
    (hprecedes : (Edit.insert (start + size before.text) block).Precedes edit) :
    Placed (start + size before.text) after diagram edit := by
  cases h with
  | inserted before' after' hlayout hname =>
    have hle : size before.text ≤ size before'.text := by
      simpa [Edit.Precedes, Edit.stop, Edit.offset] using hprecedes
    obtain ⟨middle, rfl, rfl⟩ := Layout.split_of_size_le hproper hlayout hle
    rw [Layout.text_append, size_append, ← Nat.add_assoc]
    refine .inserted middle after' rfl ?_
    intro hmem
    rw [Layout.names_append] at hname
    exact hname (List.mem_append_right _ hmem)
  | replaced before' after' opener content closer hlayout =>
    have hlt : size before.text < size before'.text + size opener := by
      simpa [Edit.Precedes, Nat.add_assoc] using hprecedes
    obtain ⟨middle, rfl, rfl⟩ | ⟨middle, rfl, -⟩ := Layout.split_at hlayout
    · rw [Layout.text_append, size_append, ← Nat.add_assoc]
      exact .replaced middle after' opener content closer rfl
    · simp only [Layout.text_append, Layout.text_cons, Stretch.text, size_append] at hlt
      omega

/-- Behind a replaced content the edits are about what is behind its region. -/
theorem Placed.after_replace {before after : Layout} {name : String} {opener content : Text}
    {closer : Option Text} (hopener : opener ≠ [])
    (h : Placed start (before ++ .region name opener content closer :: after) diagram edit)
    (hname : name ≠ diagram.kind.name) {new : Text}
    (hprecedes : (Edit.replace ⟨start + size before.text + size opener,
      start + size before.text + size opener + size content⟩ new).Precedes edit) :
    Placed (start + size before.text + size (Stretch.region name opener content closer).text)
      after diagram edit := by
  rw [ne_eq, ← size_eq_zero] at hopener
  cases h with
  | inserted before' after' hlayout hfresh =>
    have hle : size before.text + size opener + size content ≤ size before'.text := by
      simpa [Edit.Precedes, Edit.stop, Edit.offset, Nat.add_assoc] using hprecedes
    obtain ⟨middle, rfl, -⟩ | ⟨middle, rfl, rfl⟩ := Layout.split_at hlayout.symm
    · simp only [Layout.text_append, size_append] at hle
      omega
    · simp only [Layout.text_append, Layout.text_cons, size_append, ← Nat.add_assoc]
      refine .inserted middle after' rfl ?_
      intro hmem
      rw [Layout.names_append, Layout.names_region] at hfresh
      exact hfresh (List.mem_append_right _ (List.mem_cons_of_mem _ hmem))
  | replaced before' after' opener' content' closer' hlayout =>
    have hle : size before.text + size opener + size content ≤
        size before'.text + size opener' := by
      simpa [Edit.Precedes, Edit.stop, Edit.offset, Nat.add_assoc] using hprecedes
    obtain ⟨-, hsame, -⟩ | ⟨middle, rfl, rfl⟩ | ⟨middle, rfl, -⟩ := Layout.split_cases hlayout
    · injection hsame with hsame
      exact absurd hsame hname
    · simp only [Layout.text_append, Layout.text_cons, size_append, ← Nat.add_assoc]
      exact .replaced middle after' opener' content' closer' rfl
    · simp only [Layout.text_append, Layout.text_cons, Stretch.text, size_append] at hle
      omega

theorem mem_names_of_name? {layout : Layout} {stretch : Stretch} (h : stretch ∈ layout)
    {name : String} (hname : stretch.name? = some name) : name ∈ layout.names :=
  List.mem_filterMap.mpr ⟨stretch, h, hname⟩

/-- An edit behind a new region at the end of the layout is about none of its regions. -/
theorem Placed.name?_ne_of_end {layout : Layout} {second : Diagram} {edit : Edit}
    (h : Placed start layout second edit) {block : Text}
    (hprecedes : (Edit.insert (start + size layout.text) block).Precedes edit)
    {stretch : Stretch} (hmem : stretch ∈ layout) : stretch.name? ≠ some second.kind.name := by
  intro hsame
  cases h with
  | inserted _ _ _ hfresh => exact hfresh (mem_names_of_name? hmem hsame)
  | replaced before after opener content closer hlayout =>
    have hsize := congrArg (fun layout => size (Layout.text layout)) hlayout
    simp only [Edit.Precedes, Layout.text_append, Layout.text_cons, Stretch.text, size_append]
      at hsize hprecedes
    omega

/-- The induction is on the edits. Behind each of them the rest of the layout is left, with the
rest of the edits placed in it. -/
theorem exists_fits {layout : Layout} (hproper : layout.Proper) (hnodup : layout.names.Nodup)
    {pairs : List (Diagram × Edit)} (hplaced : ∀ pair ∈ pairs, Placed start layout pair.1 pair.2)
    (hkinds : pairs.Pairwise fun first second => first.1.kind ≠ second.1.kind)
    (horder : pairs.Pairwise fun first second => first.2.Precedes second.2)
    (hopen : ∀ pair ∈ pairs, pair.2.inserts = true →
      pair.2.offset = start + size layout.text →
      ∀ stretch ∈ layout, stretch.terminated = false →
        ∃ other ∈ pairs, stretch.name? = some other.1.kind.name) :
    ∃ rest, Fits start layout pairs rest := by
  induction pairs generalizing start layout with
  | nil => exact ⟨layout, .done start layout⟩
  | cons pair pairs ih =>
    obtain ⟨diagram, edit⟩ := pair
    rw [List.pairwise_cons] at hkinds horder
    have hfirst : Placed start layout diagram edit := hplaced _ List.mem_cons_self
    rw [List.forall_mem_cons] at hplaced
    cases hfirst with
    | inserted before after hlayout hname =>
      subst hlayout
      have hother : ∀ stretch ∈ before ++ after, ∀ other ∈
          (diagram, Edit.insert (start + size before.text)
            (regionBlock diagram.kind.name (codeBlock diagram.markup))) :: pairs,
          stretch.name? = some other.1.kind.name → other ∈ pairs := by
        intro stretch hmem other hother hsame
        obtain rfl | hother := List.mem_cons.mp hother
        · exact absurd (mem_names_of_name? hmem hsame) hname
        · exact hother
      have hterminated : ∀ stretch ∈ before, stretch.terminated = true := by
        intro stretch hmem
        by_contra hnot
        by_cases hafter : after = []
        · subst hafter
          rw [List.append_nil] at hopen hother hplaced
          obtain ⟨second, hin, hsame⟩ := hopen _ List.mem_cons_self rfl rfl stretch hmem
            (by simpa using hnot)
          have hin := hother stretch hmem _ hin hsame
          exact (hplaced.2 _ hin).name?_ne_of_end (horder.1 _ hin) hmem hsame
        · exact hnot ((Layout.proper_append.mp hproper).2.1 hafter stretch hmem).1
      obtain ⟨rest, hfits⟩ := ih (Layout.proper_append.mp hproper).2.2
        (by rw [Layout.names_append, List.nodup_append] at hnodup; exact hnodup.2.1)
        (fun pair hpair => (hplaced.2 pair hpair).after_insert hproper (horder.1 pair hpair))
        hkinds.2 horder.2 (by
          intro pair hpair hinserts hoffset stretch hmem hnot
          obtain ⟨other, hin, hsame⟩ := hopen pair (List.mem_cons_of_mem _ hpair) hinserts
            (by simpa [Nat.add_assoc] using hoffset) stretch (by simp [hmem]) hnot
          exact ⟨other, hother stretch (by simp [hmem]) other hin hsame, hsame⟩)
      exact ⟨rest, .insert diagram hterminated hfits⟩
    | replaced before after opener content closer hlayout =>
      subst hlayout
      obtain ⟨-, hclosed, hmarked, -, hafter⟩ := Layout.proper_append.mp hproper
      have hopener : opener ≠ [] := hmarked.opener_piece.ne_nil
      rw [Layout.names_append, Layout.names_region, List.nodup_append, List.nodup_cons] at hnodup
      obtain ⟨rest, hfits⟩ := ih hafter hnodup.2.1.2
        (fun pair hpair => (hplaced.2 pair hpair).after_replace hopener
          (fun hsame => hkinds.1 pair hpair (Kind.name_injective hsame)) (horder.1 pair hpair))
        hkinds.2 horder.2 (by
          intro pair hpair hinserts hoffset stretch hmem hnot
          obtain ⟨other, hin, hsame⟩ := hopen pair (List.mem_cons_of_mem _ hpair) hinserts
            (by simpa [Nat.add_assoc] using hoffset) stretch (by simp [hmem]) hnot
          obtain rfl | hin := List.mem_cons.mp hin
          · exact absurd (mem_names_of_name? hmem hsame) hnodup.2.1.1
          · exact ⟨other, hin, hsame⟩)
      exact ⟨rest, .replace diagram opener content closer
        (fun stretch hmem => (hclosed (by simp) stretch hmem).1) hfits⟩

end Layouts

/-! ### Planned edits -/

section Planned

variable {layout : Layout} {first second : Diagram}

theorem Placed.precedes (hproper : layout.Proper) {edit edit' : Edit}
    (h : Placed 0 layout first edit) (h' : Placed 0 layout second edit')
    (hkind : first.kind ≠ second.kind) (hle : edit.offset ≤ edit'.offset)
    (hstrict : edit.inserts = true → edit'.inserts = false → edit.offset ≠ edit'.offset) :
    edit.Precedes edit' := by
  have hstop := h.stop_le_offset hproper h' hkind hle
  cases edit with
  | replace range text => exact hstop
  | insert offset block =>
    cases edit' with
    | insert offset' block' => exact hstop
    | replace range text => exact Nat.lt_of_le_of_ne hle (hstrict rfl rfl)

/-- A new region goes in where a content begins only if that content is empty and the region is
still open at the end of the document. -/
theorem Placed.open_of_offset_eq (hproper : layout.Proper) {edit edit' : Edit}
    (h : Placed 0 layout first edit) (h' : Placed 0 layout second edit')
    (hinserts : edit.inserts = true) (hreplaces : edit'.inserts = false)
    (heq : edit.offset = edit'.offset) :
    ∃ before opener, layout = before ++ [.region second.kind.name opener [] none] ∧
      edit.offset = size layout.text := by
  cases h with
  | replaced => contradiction
  | inserted before after hlayout hname =>
    cases h' with
    | inserted => contradiction
    | replaced before' after' opener content closer hlayout' =>
      have hmarked : Stretch.MarkedRegion second.kind.name opener content closer :=
        hproper.marked (.region _ opener content closer) (by simp [hlayout'])
      have hopener : size opener ≠ 0 := by simpa using hmarked.opener_piece.ne_nil
      simp only [Edit.offset, Nat.zero_add] at heq
      obtain ⟨middle, rfl, -⟩ | ⟨middle, rfl, rfl⟩ := Layout.split_at (hlayout.symm.trans hlayout')
      · rw [Layout.text_append, size_append] at heq
        omega
      · simp only [Layout.text_append, Layout.text_cons, Stretch.text, size_append] at heq
        have hcontent : content = [] := by
          rw [← size_eq_zero]
          omega
        have hcloser : closer = none := by
          cases closer with
          | none => rfl
          | some line =>
            have hline : size line ≠ 0 := by simpa using (hmarked.closer_piece line rfl).1.ne_nil
            simp only [Option.getD_some] at heq
            omega
        subst hcontent hcloser
        rw [hlayout'] at hproper
        obtain ⟨-, -, -, hclosed, -⟩ := Layout.proper_append.mp hproper
        have hnil : middle ++ after = [] := by
          by_contra hne
          exact absurd (hclosed hne).1 (by simp [Stretch.terminated])
        rw [hnil] at hlayout'
        obtain ⟨rfl, rfl⟩ := List.append_eq_nil_iff.mp hnil
        exact ⟨before', opener, hlayout', by simp [Edit.offset, hlayout']⟩

/-- The sort by place leaves every edit behind those that it has to follow, if no new region
is planned in front of the content that begins at the same place. -/
theorem pairwise_precedes (hproper : layout.Proper) (anchor : Kind → Anchor)
    {diagrams : List Diagram} (hkinds : (diagrams.map Diagram.kind).Nodup)
    (hstrict : (plannedEdits layout.text (layout.regions 0) anchor diagrams).Pairwise
      fun first second => first.2.inserts = true → second.2.inserts = false →
        first.2.offset ≠ second.2.offset) :
    (inOrder (plannedEdits layout.text (layout.regions 0) anchor diagrams)).Pairwise
      fun first second => first.2.Precedes second.2 := by
  apply pairwise_inOrder_of
  apply ((pairwise_kind_plannedEdits hkinds).and hstrict).imp_of_mem
  rintro first second hfirst hsecond ⟨hne, hstrict⟩
  have hplaced := (placed_of_mem_plannedEdits hproper hfirst).2
  have hplaced' := (placed_of_mem_plannedEdits hproper hsecond).2
  refine ⟨fun hle => hplaced.precedes hproper hplaced' hne hle hstrict, fun hlt => ?_⟩
  exact hplaced'.precedes hproper hplaced (Ne.symm hne) (Nat.le_of_lt hlt)
    (fun _ _ => Nat.ne_of_lt hlt)

theorem pairwise_kind_inOrder {document : Text} {regions : List Region} {anchor : Kind → Anchor}
    {diagrams : List Diagram} (hkinds : (diagrams.map Diagram.kind).Nodup) :
    (inOrder (plannedEdits document regions anchor diagrams)).Pairwise
      fun first second => first.1.kind ≠ second.1.kind := by
  apply pairwise_inOrder_of
  exact (pairwise_kind_plannedEdits hkinds).imp fun hne => ⟨fun _ => hne, fun _ => Ne.symm hne⟩

theorem exists_fits_inOrder (hproper : layout.Proper) (hnodup : layout.names.Nodup)
    (anchor : Kind → Anchor) {diagrams : List Diagram}
    (hkinds : (diagrams.map Diagram.kind).Nodup)
    (hstrict : (plannedEdits layout.text (layout.regions 0) anchor diagrams).Pairwise
      fun first second => first.2.inserts = true → second.2.inserts = false →
        first.2.offset ≠ second.2.offset)
    (hopen : ∀ pair ∈ plannedEdits layout.text (layout.regions 0) anchor diagrams,
      pair.2.inserts = true → pair.2.offset = size layout.text →
      ∀ stretch ∈ layout, stretch.terminated = false →
        ∃ other ∈ plannedEdits layout.text (layout.regions 0) anchor diagrams,
          stretch.name? = some other.1.kind.name) :
    ∃ rest, Fits 0 layout
      (inOrder (plannedEdits layout.text (layout.regions 0) anchor diagrams)) rest := by
  apply exists_fits hproper hnodup
  · intro pair hpair
    exact (placed_of_mem_plannedEdits hproper (mem_inOrder.mp hpair)).2
  · exact pairwise_kind_inOrder hkinds
  · exact pairwise_precedes hproper anchor hkinds hstrict
  · intro pair hpair hinserts hoffset stretch hmem hnot
    obtain ⟨other, hother, hsame⟩ := hopen pair (mem_inOrder.mp hpair) hinserts
      (by simpa using hoffset) stretch hmem hnot
    exact ⟨other, mem_inOrder.mpr hother, hsame⟩

end Planned

end Update
end DiagramSync
