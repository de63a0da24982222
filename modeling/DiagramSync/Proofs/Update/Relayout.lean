import DiagramSync.Proofs.Update.Order
import DiagramSync.Proofs.Update.Revised

/-!
Carrying out edits on a layout. As long as no new region goes in behind one that is still
open, what is written so far is a layout of its own, and it has the old regions and those of
the diagrams.
-/

namespace DiagramSync

open Text

/-! ### Cursors -/

namespace Text

theorem takeBytes_append_of_le {n : Nat} {a : Text} (h : size a ≤ n) (b : Text) :
    takeBytes n (a ++ b) = a ++ takeBytes (n - size a) b := by
  induction a generalizing n with
  | nil => simp
  | cons c cs ih =>
    rw [size_cons] at h
    have hc : c.utf8Size ≤ n := by omega
    rw [List.cons_append, takeBytes, if_pos hc, ih (by omega), size_cons, Nat.sub_add_eq]
    rfl

theorem slice_append_of_le {front kept rest : Text} {stop : Nat}
    (h : size front + size kept ≤ stop) :
    slice (size front) stop (front ++ (kept ++ rest)) =
      kept ++ slice (size front + size kept) stop (front ++ (kept ++ rest)) := by
  have hdrop : dropBytes (size front + size kept) (front ++ (kept ++ rest)) = rest := by
    rw [← size_append, ← List.append_assoc, dropBytes_size_append]
  rw [slice, slice, dropBytes_size_append, hdrop, takeBytes_append_of_le (by omega),
    Nat.sub_add_eq]

end Text

/-- Returns `true` if the edit puts in a new region. -/
def Edit.inserts : Edit → Bool
  | .insert _ _ => true
  | .replace _ _ => false

@[simp] theorem Edit.inserts_insert (offset : Nat) (block : Text) :
    (insert offset block).inserts = true := rfl

@[simp] theorem Edit.inserts_replace (range : Span) (text : Text) :
    (replace range text).inserts = false := rfl

namespace Update

theorem carryOut_advance {document front kept rest : Text}
    (hdocument : document = front ++ (kept ++ rest)) (written : Text) {edits : List Edit}
    (hedits : ∀ edit ∈ edits.head?, size front + size kept ≤ edit.offset) :
    carryOut document written (size front) edits =
      carryOut document (written ++ kept) (size front + size kept) edits := by
  subst hdocument
  cases edits with
  | nil =>
    have hdrop : dropBytes (size front + size kept) (front ++ (kept ++ rest)) = rest := by
      rw [← size_append, ← List.append_assoc, dropBytes_size_append]
    rw [carryOut, carryOut, hdrop, dropBytes_size_append, List.append_assoc]
  | cons edit edits =>
    cases edit with
    | replace range text =>
      have hstart : size front + size kept ≤ range.start := hedits _ rfl
      rw [carryOut, carryOut, slice_append_of_le hstart]
      simp only [List.append_assoc]
    | insert offset block =>
      have hoffset : size front + size kept ≤ offset := hedits _ rfl
      rw [carryOut, carryOut, slice_append_of_le hoffset]
      simp only [List.append_assoc]

/-! ### Progress -/

/-- How far edits are carried out: `front` is the part of the document that is dealt with,
`written` stands in its place, and `left` is still to come. -/
structure Progress (document front : Text) (written left : Layout) : Prop where
  document_eq : document = front ++ left.text
  left_proper : left.Proper
  written_proper : written.Proper
  terminated : ∀ stretch ∈ written, stretch.terminated = true
  whole : left ≠ [] → Whole written.text

namespace Progress

variable {document front : Text} {written left : Layout}

theorem start {layout : Layout} (hproper : layout.Proper) :
    Progress layout.text [] [] layout :=
  ⟨rfl, hproper, trivial, by simp, fun _ => whole_nil⟩

theorem closed (h : Progress document front written left) (hne : left ≠ []) :
    ∀ stretch ∈ written, stretch.Closed :=
  Layout.closed_of_whole h.written_proper h.terminated (h.whole hne)

theorem keep {kept : Layout} (h : Progress document front written (kept ++ left))
    (hkept : ∀ stretch ∈ kept, stretch.terminated = true) :
    Progress document (front ++ kept.text) (written ++ kept) left := by
  obtain ⟨hproper, hclosed, hleft⟩ := Layout.proper_append.mp h.left_proper
  refine ⟨by simpa using h.document_eq, hleft, ?_, ?_, ?_⟩
  · rw [Layout.proper_append]
    exact ⟨h.written_proper, fun hne => h.closed (by simp [hne]), hproper⟩
  · simp only [List.forall_mem_append]
    exact ⟨h.terminated, hkept⟩
  · intro hne
    rw [Layout.text_append]
    exact (h.whole (by simp [hne])).append (Layout.whole_text_of_closed (hclosed hne))

theorem insert (h : Progress document front written left) {diagram : Diagram}
    (hunmarked : diagram.Unmarked) :
    ∃ written', Progress document front written' left ∧
      written'.entries = written.entries ++ [diagram.entry] ∧
      written'.text = written.text ++ separator written.text ++
        regionBlock diagram.kind.name (codeBlock diagram.markup) ++
        (if size front < size document then ['\n'] else []) := by
  obtain ⟨separated, hproper, hclosed, hentries, htext⟩ :=
    exists_separated h.written_proper h.terminated
  have hgap : ∃ gap : Layout, gap.Proper ∧ (∀ stretch ∈ gap, stretch.Closed) ∧ gap.entries = [] ∧
      gap.text = if size front < size document then ['\n'] else [] := by
    split
    · exact ⟨[.plain ['\n']], ⟨Stretch.marked_feed, by simp, trivial⟩,
        by simpa using Stretch.closed_feed, rfl, rfl⟩
    · exact ⟨[], trivial, by simp, rfl, rfl⟩
  obtain ⟨gap, hgapProper, hgapClosed, hgapEntries, hgapText⟩ := hgap
  have hall : ∀ stretch ∈ separated ++ Stretch.ofDiagram diagram :: gap, stretch.Closed := by
    rw [List.forall_mem_append, List.forall_mem_cons]
    exact ⟨hclosed, Stretch.closed_ofDiagram diagram, hgapClosed⟩
  refine ⟨separated ++ Stretch.ofDiagram diagram :: gap, ⟨h.document_eq, h.left_proper, ?_,
    fun stretch hmem => (hall stretch hmem).1, fun _ => Layout.whole_text_of_closed hall⟩, ?_, ?_⟩
  · exact Layout.proper_append.mpr ⟨hproper, fun _ => hclosed,
      Stretch.marked_ofDiagram hunmarked, fun _ => Stretch.closed_ofDiagram diagram, hgapProper⟩
  · rw [Layout.entries_append, hentries, Stretch.ofDiagram, Layout.entries_region, hgapEntries]
    rfl
  · rw [Layout.text_append, Layout.text_cons, htext, hgapText, Stretch.text_ofDiagram]
    simp only [List.append_assoc]

theorem replace {diagram : Diagram} {opener content : Text} {closer : Option Text}
    (h : Progress document front written
      (.region diagram.kind.name opener content closer :: left))
    (hunmarked : diagram.Unmarked) :
    ∃ written', Progress document
        (front ++ (Stretch.region diagram.kind.name opener content closer).text) written' left ∧
      written'.entries = written.entries ++ [diagram.entry] ∧
      written'.text = written.text ++ opener ++
        newContent diagram.kind.name opener (codeBlock diagram.markup) closer ++
        closer.getD [] := by
  obtain ⟨hmarked, hclosed, hleft⟩ := h.left_proper
  obtain ⟨opener', closer', hmarked', htext, hclosed'⟩ :=
    Stretch.MarkedRegion.exists_renewed hmarked hunmarked
  refine ⟨written ++ [.region diagram.kind.name opener' (codeBlock diagram.markup) (some closer')],
    ⟨by simpa using h.document_eq, hleft, ?_, ?_, ?_⟩, ?_, ?_⟩
  · exact Layout.proper_append.mpr ⟨h.written_proper, fun _ => h.closed (by simp),
      hmarked', by simp, trivial⟩
  · simp only [List.forall_mem_append, List.forall_mem_singleton]
    exact ⟨h.terminated, rfl⟩
  · intro hne
    rw [Layout.text_append, Layout.text_cons, Layout.text_nil, List.append_nil]
    exact (h.whole (by simp)).append (hclosed' (hclosed hne)).2
  · rw [Layout.entries_append]
    rfl
  · rw [Layout.text_append, Layout.text_cons, htext]
    simp

end Progress

/-! ### Edits that fit a layout -/

/-- The edits are about one stretch after the other, and no region is open where a new one goes
in. Behind the last of them `rest` is left. -/
inductive Fits : Nat → Layout → List (Diagram × Edit) → Layout → Prop where
  | done (start : Nat) (layout : Layout) : Fits start layout [] layout
  | insert {start : Nat} {before after rest : Layout} {pairs : List (Diagram × Edit)}
      (diagram : Diagram) : (∀ stretch ∈ before, stretch.terminated = true) →
      Fits (start + size before.text) after pairs rest →
      Fits start (before ++ after)
        ((diagram, .insert (start + size before.text)
          (regionBlock diagram.kind.name (codeBlock diagram.markup))) :: pairs) rest
  | replace {start : Nat} {before after rest : Layout} {pairs : List (Diagram × Edit)}
      (diagram : Diagram) (opener content : Text) (closer : Option Text) :
      (∀ stretch ∈ before, stretch.terminated = true) →
      Fits (start + size before.text +
          size (Stretch.region diagram.kind.name opener content closer).text) after pairs rest →
      Fits start (before ++ .region diagram.kind.name opener content closer :: after)
        ((diagram, .replace ⟨start + size before.text + size opener,
            start + size before.text + size opener + size content⟩
          (newContent diagram.kind.name opener (codeBlock diagram.markup) closer)) :: pairs) rest

/-- The diagrams that get a new region. -/
def inserted (pairs : List (Diagram × Edit)) : List Diagram :=
  (pairs.filter fun pair => pair.2.inserts).map Prod.fst

/-- The diagrams whose region gets a new content. -/
def replaced (pairs : List (Diagram × Edit)) : List Diagram :=
  (pairs.filter fun pair => !pair.2.inserts).map Prod.fst

theorem Fits.start_le_offset {start : Nat} {layout rest : Layout} {pairs : List (Diagram × Edit)}
    (h : Fits start layout pairs rest) :
    ∀ edit ∈ (pairs.map Prod.snd).head?, start ≤ edit.offset := by
  cases h with
  | done => simp
  | insert diagram hterminated hfits => simp [Edit.offset]
  | replace diagram opener content closer hterminated hfits =>
    simp [Edit.offset, Nat.add_assoc]

/-- An open stretch is left, unless a diagram replaces it. -/
theorem Fits.mem_rest {start : Nat} {layout rest : Layout} {pairs : List (Diagram × Edit)}
    (h : Fits start layout pairs rest) {stretch : Stretch} (hmem : stretch ∈ layout)
    (hopen : stretch.terminated = false)
    (hother : ∀ pair ∈ pairs, stretch.name? ≠ some pair.1.kind.name) : stretch ∈ rest := by
  induction h with
  | done => exact hmem
  | insert diagram hterminated _ ih =>
    rw [List.forall_mem_cons] at hother
    obtain hmem | hmem := List.mem_append.mp hmem
    · rw [hterminated stretch hmem] at hopen
      contradiction
    · exact ih hmem hother.2
  | replace diagram opener content closer hterminated _ ih =>
    rw [List.forall_mem_cons] at hother
    rw [List.mem_append, List.mem_cons] at hmem
    obtain hmem | rfl | hmem := hmem
    · rw [hterminated stretch hmem] at hopen
      contradiction
    · exact absurd rfl hother.1
    · exact ih hmem hother.2

theorem exists_carryOut_eq_append (document written : Text) (cursor : Nat) (edits : List Edit) :
    ∃ more, carryOut document written cursor edits = written ++ more := by
  induction edits generalizing written cursor with
  | nil => exact ⟨_, rfl⟩
  | cons edit edits ih =>
    cases edit with
    | replace range text =>
      obtain ⟨more, hmore⟩ :=
        ih (written ++ slice cursor range.start document ++ text) range.stop
      exact ⟨slice cursor range.start document ++ text ++ more, by
        rw [carryOut, hmore]
        simp only [List.append_assoc]⟩
    | insert offset block =>
      obtain ⟨more, hmore⟩ := ih (written ++ slice cursor offset document ++
        separator (written ++ slice cursor offset document) ++ block ++
        (if offset < size document then ['\n'] else [])) offset
      rw [carryOut, hmore]
      simp only [List.append_assoc]
      exact ⟨_, rfl⟩

/-- A new region goes in behind the stretches that are kept. -/
theorem exists_carryOut_insert_eq {document front : Text} {written before after : Layout}
    (h : Progress document front written (before ++ after))
    (hterminated : ∀ stretch ∈ before, stretch.terminated = true) {diagram : Diagram}
    (hunmarked : diagram.Unmarked) :
    ∃ written', Progress document (front ++ before.text) written' after ∧
      written'.entries = written.entries ++ before.entries ++ [diagram.entry] ∧
      ∀ edits, carryOut document written.text (size front)
          (.insert (size front + size before.text)
            (regionBlock diagram.kind.name (codeBlock diagram.markup)) :: edits) =
        carryOut document written'.text (size front + size before.text) edits := by
  obtain ⟨written', hprogress, hentries, htext⟩ := (h.keep hterminated).insert hunmarked
  refine ⟨written', hprogress, by rw [hentries, Layout.entries_append], fun edits => ?_⟩
  have hkept : slice (size front) (size front + size before.text) document = before.text := by
    rw [h.document_eq, Layout.text_append, slice_append]
  rw [carryOut, hkept, htext]
  simp only [Layout.text_append, size_append]

/-- A region behind the stretches that are kept gets its new content. -/
theorem exists_carryOut_replace_eq {document front : Text} {written before after : Layout}
    {diagram : Diagram} {opener content : Text} {closer : Option Text}
    (h : Progress document front written
      (before ++ .region diagram.kind.name opener content closer :: after))
    (hterminated : ∀ stretch ∈ before, stretch.terminated = true)
    (hunmarked : diagram.Unmarked) :
    let start := size front + size before.text
    let stop := start + size (Stretch.region diagram.kind.name opener content closer).text
    ∃ written', Progress document (front ++ before.text ++
        (Stretch.region diagram.kind.name opener content closer).text) written' after ∧
      written'.entries = written.entries ++ before.entries ++ [diagram.entry] ∧
      ∀ edits, (∀ edit ∈ edits.head?, stop ≤ edit.offset) →
        carryOut document written.text (size front)
          (.replace ⟨start + size opener, start + size opener + size content⟩
            (newContent diagram.kind.name opener (codeBlock diagram.markup) closer) :: edits) =
        carryOut document written'.text stop edits := by
  intro start stop
  obtain ⟨written', hprogress, hentries, htext⟩ := (h.keep hterminated).replace hunmarked
  refine ⟨written', hprogress, by rw [hentries, Layout.entries_append], fun edits hedits => ?_⟩
  have hkept : slice (size front) (start + size opener) document = before.text ++ opener := by
    rw [show start + size opener = size front + size (before.text ++ opener) by
      simp only [start, size_append, Nat.add_assoc], h.document_eq, Layout.text_append,
      Layout.text_cons, Stretch.text]
    simpa using slice_append front (before.text ++ opener)
      (content ++ closer.getD [] ++ after.text)
  have hstop : size (front ++ before.text ++ opener ++ content) + size (closer.getD []) = stop := by
    simp [start, stop, Stretch.text, Nat.add_assoc]
  have hadvance := carryOut_advance (by simpa [Stretch.text] using h.document_eq)
    (written.text ++ before.text ++ opener ++
      newContent diagram.kind.name opener (codeBlock diagram.markup) closer)
    (hstop ▸ hedits)
  rw [hstop] at hadvance
  rw [carryOut, hkept, htext]
  simpa [start, Nat.add_assoc] using hadvance

/-- Edits that fit are carried out stretch by stretch. -/
theorem carryOut_fits {document : Text} {start : Nat} {layout rest : Layout}
    {pairs : List (Diagram × Edit)} (hfits : Fits start layout pairs rest)
    (hunmarked : ∀ pair ∈ pairs, pair.1.Unmarked) {front : Text} (hstart : start = size front)
    {written : Layout} (hprogress : Progress document front written layout) :
    ∃ front' written' old new, Progress document front' written' rest ∧
      layout.entries = old ++ rest.entries ∧ written'.entries = written.entries ++ new ∧
      Revised (inserted pairs) (replaced pairs) old new ∧ start ≤ size front' ∧
      ∀ edits, (∀ edit ∈ edits.head?, size front' ≤ edit.offset) →
        carryOut document written.text start (pairs.map Prod.snd ++ edits) =
          carryOut document written'.text (size front') edits := by
  induction hfits generalizing front written with
  | done start layout =>
    subst hstart
    exact ⟨front, written, [], [], hprogress, by simp, by simp, .nil, Nat.le_refl _,
      fun edits _ => rfl⟩
  | @insert start before after rest pairs diagram hterminated hfits ih =>
    subst hstart
    rw [List.forall_mem_cons] at hunmarked
    obtain ⟨written₁, hprogress₁, hentries₁, hstep⟩ :=
      exists_carryOut_insert_eq hprogress hterminated hunmarked.1
    obtain ⟨front', written', old, new, hprogress', hold, hnew, hrevised, hle, hout⟩ :=
      ih hunmarked.2 (by simp) hprogress₁
    refine ⟨front', written', before.entries ++ old, before.entries ++ diagram.entry :: new,
      hprogress', ?_, ?_, ?_, ?_, ?_⟩
    · simp [hold]
    · simp [hnew, hentries₁]
    · exact (hrevised.insert diagram).keep_append before.entries
    · omega
    · intro edits hedits
      rw [← hout edits hedits]
      exact hstep _
  | @replace start before after rest pairs diagram opener content closer hterminated hfits ih =>
    subst hstart
    rw [List.forall_mem_cons] at hunmarked
    obtain ⟨written₁, hprogress₁, hentries₁, hstep⟩ :=
      exists_carryOut_replace_eq hprogress hterminated hunmarked.1
    obtain ⟨front', written', old, new, hprogress', hold, hnew, hrevised, hle, hout⟩ :=
      ih hunmarked.2 (by simp [Nat.add_assoc]) hprogress₁
    let entry : Entry := ⟨diagram.kind.name, String.ofList content, closer.isSome⟩
    refine ⟨front', written', before.entries ++ entry :: old,
      before.entries ++ diagram.entry :: new, hprogress', ?_, ?_, ?_, ?_, ?_⟩
    · simp [hold, entry]
    · simp [hnew, hentries₁]
    · exact (hrevised.replace diagram entry rfl).keep_append before.entries
    · omega
    · intro edits hedits
      rw [← hout edits hedits]
      apply hstep
      cases pairs with
      | nil =>
        intro edit hedit
        exact Nat.le_trans hle (hedits edit hedit)
      | cons pair pairs => exact hfits.start_le_offset

end Update
end DiagramSync
