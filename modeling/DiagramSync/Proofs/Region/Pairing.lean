import DiagramSync.Proofs.Region.Location

/-!
What the markers of a document decide. Which region is open behind some markers is said here
without a walk: a begin marker opens a region if none is open in front of it, and the region
stays open up to the first end marker of its name.

The walk over the markers keeps to that: a document is accepted if and only if its markers are
unambiguous, every finding is about one marker or about the region that is never closed, and
there is one region for each begin marker.
-/

namespace DiagramSync

/-- The diagnostic is of that severity and code and has that message. Its primary label is at
`place`, and its others are at `others`. -/
structure Diagnostic.Says (severity : Severity) (code message : String) (place : Span)
    (others : List Span) (diagnostic : Diagnostic) : Prop where
  severity_eq : diagnostic.severity = severity
  code_eq : diagnostic.code.map Code.text = some code
  message_eq : diagnostic.message = message
  labels_eq : (diagnostic.labels.map fun label => (label.span, label.primary)) =
    (place, true) :: others.map fun other => (other, false)

namespace Region

/-! ### Open regions -/

/-- The region that `opening` begins is open behind the markers: its begin marker stands outside
of all regions, and no end marker of its name follows. -/
def OpenBehind (markers : List (Line × Marker)) (opening : Opening) : Prop :=
  ∃ before after, ∃ _ : markers = before ++ (opening.line, ⟨.begins, opening.name⟩) :: after,
    (∀ outer, ¬ OpenBehind before outer) ∧ ∀ pair ∈ after, pair.2 ≠ ⟨.ends, opening.name⟩
termination_by markers.length
decreasing_by simp [*]

/-- One of the markers opens the region, whether it is closed behind it or not. -/
def Opened (markers : List (Line × Marker)) (opening : Opening) : Prop :=
  ∃ before after, markers = before ++ (opening.line, ⟨.begins, opening.name⟩) :: after ∧
    ∀ outer, ¬ OpenBehind before outer

/-- One of the markers opens the region, and none in front of it opens one of that name. -/
def FirstOpened (markers : List (Line × Marker)) (opening : Opening) : Prop :=
  ∃ before after, markers = before ++ (opening.line, ⟨.begins, opening.name⟩) :: after ∧
    (∀ outer, ¬ OpenBehind before outer) ∧
    ∀ earlier, Opened before earlier → earlier.name ≠ opening.name

/-- The names of the begin markers, in order. -/
def beginNames (markers : List (Line × Marker)) : List String :=
  (markers.filter fun pair => pair.2.side = .begins).map fun pair => pair.2.name

/-- No begin marker among `rest` stands inside of a region, where `before` is in front of them. -/
def BeginsOutside (before rest : List (Line × Marker)) : Prop :=
  ∀ front line name after, rest = front ++ (line, ⟨.begins, name⟩) :: after →
    ∀ outer, ¬ OpenBehind (before ++ front) outer

/-- Every begin marker stands outside of all regions, and no two have the same name. -/
def Unambiguous (markers : List (Line × Marker)) : Prop :=
  BeginsOutside [] markers ∧ (beginNames markers).Nodup

/-- What is said about a marker, given the markers in front of it. -/
inductive Tells (before : List (Line × Marker)) : Line × Marker → Option Diagnostic → Prop where
  | nested (line : Line) (name : String) (outer : Opening) (diagnostic : Diagnostic) :
      OpenBehind before outer →
      diagnostic.Says .error "E002" s!"region `{name}` begins inside region `{outer.name}`"
        line.span [outer.line.span] →
      Tells before (line, ⟨.begins, name⟩) (some diagnostic)
  | duplicate (line : Line) (first : Opening) (diagnostic : Diagnostic) :
      (∀ outer, ¬ OpenBehind before outer) → FirstOpened before first →
      diagnostic.Says .error "E001" s!"region `{first.name}` is defined multiple times"
        line.span [first.line.span] →
      Tells before (line, ⟨.begins, first.name⟩) (some diagnostic)
  | opens (line : Line) (name : String) :
      (∀ outer, ¬ OpenBehind before outer) →
      (∀ earlier, Opened before earlier → earlier.name ≠ name) →
      Tells before (line, ⟨.begins, name⟩) none
  | closes (line : Line) (opening : Opening) :
      OpenBehind before opening → Tells before (line, ⟨.ends, opening.name⟩) none
  | stray (line : Line) (name : String) (diagnostic : Diagnostic) :
      (∀ opening, OpenBehind before opening → opening.name ≠ name) →
      diagnostic.Says .warning "E003" s!"end marker for `{name}` has no open region"
        line.span [] →
      Tells before (line, ⟨.ends, name⟩) (some diagnostic)

/-- The findings about the markers that stand behind `before`: one by one in their order, and
last about the region that is open in the end. -/
inductive Reported : List (Line × Marker) → List (Line × Marker) → List Diagnostic → Prop where
  | closed (before : List (Line × Marker)) :
      (∀ opening, ¬ OpenBehind before opening) → Reported before [] []
  | unterminated (before : List (Line × Marker)) (opening : Opening) (diagnostic : Diagnostic) :
      OpenBehind before opening →
      diagnostic.Says .warning "E004" s!"region `{opening.name}` has no end marker"
        opening.line.span [] →
      Reported before [] [diagnostic]
  | marker {before rest : List (Line × Marker)} {pair : Line × Marker}
      {told : Option Diagnostic} {diagnostics : List Diagnostic} :
      Tells before pair told → Reported (before ++ [pair]) rest diagnostics →
      Reported before (pair :: rest) (told.toList ++ diagnostics)

/-- The region of an opening, given the markers behind it and the size of the document: up to the
line of the first end marker of its name, or else up to the end of the document. -/
inductive Delimits (size : Nat) (opening : Opening) : List (Line × Marker) → Region → Prop where
  | closed (between beyond : List (Line × Marker)) (closer : Line) (content : String) :
      (∀ pair ∈ between, pair.2 ≠ ⟨.ends, opening.name⟩) →
      Delimits size opening (between ++ (closer, ⟨.ends, opening.name⟩) :: beyond)
        { name := opening.name, range := ⟨opening.line.start, closer.stop⟩,
          contentRange := ⟨opening.line.stop, closer.start⟩, content, terminated := true }
  | unterminated (after : List (Line × Marker)) (content : String) :
      (∀ pair ∈ after, pair.2 ≠ ⟨.ends, opening.name⟩) →
      Delimits size opening after
        { name := opening.name, range := ⟨opening.line.start, size⟩,
          contentRange := ⟨opening.line.stop, size⟩, content, terminated := false }

/-- One region for each begin marker, in their order. -/
inductive Located (size : Nat) : List (Line × Marker) → List Region → Prop where
  | nil : Located size [] []
  | begins (line : Line) (name : String) {after : List (Line × Marker)} {region : Region}
      {regions : List Region} :
      Delimits size ⟨name, line⟩ after region → Located size after regions →
      Located size ((line, ⟨.begins, name⟩) :: after) (region :: regions)
  | ends (line : Line) (name : String) {after : List (Line × Marker)} {regions : List Region} :
      Located size after regions → Located size ((line, ⟨.ends, name⟩) :: after) regions

/-- The content is what the document has at the content's range. -/
def ReadFrom (document : Text) (region : Region) : Prop :=
  ∃ before after, document = before ++ (region.content.toList ++ after) ∧
    region.contentRange.start = Text.size before ∧
    region.contentRange.stop = Text.size before + Text.size region.content.toList

/-! ### One marker more -/

section Steps

variable {markers before rest : List (Line × Marker)} {pair : Line × Marker} {opening : Opening}

/-- A split of a list with one element more is at that element or in front of it. -/
theorem eq_append_cons_snoc_iff {α : Type} {list before after : List α} {last a : α} :
    list ++ [last] = before ++ a :: after ↔
      (∃ init, list = before ++ a :: init ∧ after = init ++ [last]) ∨
        (list = before ∧ last = a ∧ after = []) := by
  constructor
  · intro h
    obtain rfl | ⟨init, final, rfl⟩ := List.eq_nil_or_concat' after
    · obtain ⟨hlist, hlast⟩ := List.append_inj' h rfl
      exact .inr ⟨hlist, by simpa using hlast, rfl⟩
    · rw [← List.cons_append, ← List.append_assoc] at h
      obtain ⟨hlist, hlast⟩ := List.append_inj' h rfl
      obtain rfl : last = final := by simpa using hlast
      exact .inl ⟨init, hlist, rfl⟩
  · rintro (⟨init, rfl, rfl⟩ | ⟨rfl, rfl, rfl⟩)
    · simp
    · rfl

theorem openBehind_iff : OpenBehind markers opening ↔
    ∃ before after, markers = before ++ (opening.line, ⟨.begins, opening.name⟩) :: after ∧
      (∀ outer, ¬ OpenBehind before outer) ∧ ∀ pair ∈ after, pair.2 ≠ ⟨.ends, opening.name⟩ := by
  conv_lhs => unfold OpenBehind
  simp only [exists_prop]

theorem not_openBehind_nil : ¬ OpenBehind [] opening := by
  rw [openBehind_iff]
  rintro ⟨before, after, h, -⟩
  simp at h

theorem openBehind_snoc : OpenBehind (markers ++ [pair]) opening ↔
    (OpenBehind markers opening ∧ pair.2 ≠ ⟨.ends, opening.name⟩) ∨
      (pair = (opening.line, ⟨.begins, opening.name⟩) ∧ ∀ outer, ¬ OpenBehind markers outer) := by
  rw [openBehind_iff]
  constructor
  · rintro ⟨before, after, h, hfree, hopen⟩
    obtain ⟨init, rfl, rfl⟩ | ⟨rfl, rfl, rfl⟩ := eq_append_cons_snoc_iff.mp h
    · rw [List.forall_mem_append, List.forall_mem_singleton] at hopen
      exact .inl ⟨openBehind_iff.mpr ⟨before, init, rfl, hfree, hopen.1⟩, hopen.2⟩
    · exact .inr ⟨rfl, hfree⟩
  · rintro (⟨hopen, hpair⟩ | ⟨rfl, hfree⟩)
    · obtain ⟨before, after, rfl, hfree, hopen⟩ := openBehind_iff.mp hopen
      refine ⟨before, after ++ [pair], by simp, hfree, ?_⟩
      rw [List.forall_mem_append, List.forall_mem_singleton]
      exact ⟨hopen, hpair⟩
    · exact ⟨markers, [], rfl, hfree, by simp⟩

theorem opened_snoc : Opened (markers ++ [pair]) opening ↔ Opened markers opening ∨
    (pair = (opening.line, ⟨.begins, opening.name⟩) ∧ ∀ outer, ¬ OpenBehind markers outer) := by
  constructor
  · rintro ⟨before, after, h, hfree⟩
    obtain ⟨init, rfl, rfl⟩ | ⟨rfl, rfl, rfl⟩ := eq_append_cons_snoc_iff.mp h
    · exact .inl ⟨before, init, rfl, hfree⟩
    · exact .inr ⟨rfl, hfree⟩
  · rintro (⟨before, after, rfl, hfree⟩ | ⟨rfl, hfree⟩)
    · exact ⟨before, after ++ [pair], by simp, hfree⟩
    · exact ⟨markers, [], rfl, hfree⟩

@[simp] theorem beginNames_nil : beginNames [] = [] := rfl

@[simp] theorem beginNames_begins (line : Line) (name : String) :
    beginNames ((line, ⟨.begins, name⟩) :: rest) = name :: beginNames rest := rfl

@[simp] theorem beginNames_ends (line : Line) (name : String) :
    beginNames ((line, ⟨.ends, name⟩) :: rest) = beginNames rest := rfl

theorem beginsOutside_nil : BeginsOutside before [] := by
  simp [BeginsOutside]

theorem beginsOutside_cons : BeginsOutside before (pair :: rest) ↔
    (pair.2.side = .begins → ∀ outer, ¬ OpenBehind before outer) ∧
      BeginsOutside (before ++ [pair]) rest := by
  constructor
  · intro h
    refine ⟨fun hside => ?_, fun front line name after hrest => ?_⟩
    · obtain ⟨line, side, name⟩ := pair
      obtain rfl : side = .begins := hside
      simpa using h [] line name rest rfl
    · simpa using h (pair :: front) line name after (by simp [hrest])
  · rintro ⟨hfirst, hrest⟩ front line name after hsplit
    cases front with
    | nil =>
      obtain ⟨rfl, -⟩ := List.cons.inj hsplit
      simpa using hfirst rfl
    | cons first front =>
      obtain ⟨rfl, htail⟩ := List.cons.inj hsplit
      simpa using hrest front line name after htail

theorem FirstOpened.snoc (h : FirstOpened markers opening) (pair : Line × Marker) :
    FirstOpened (markers ++ [pair]) opening := by
  obtain ⟨before, after, rfl, hfree, hfirst⟩ := h
  exact ⟨before, after ++ [pair], by simp, hfree, hfirst⟩

end Steps

/-! ### The walk -/

/-- What the walk knows behind the markers: the region that is open, and for each name the place
of the begin marker that opened it first. -/
structure Knows (before : List (Line × Marker)) (opened : Option Opening)
    (seen : List (String × Span)) : Prop where
  opened_iff : ∀ opening, OpenBehind before opening ↔ opened = some opening
  fresh_iff : ∀ name, seen.lookup name = none ↔
    ∀ earlier, Opened before earlier → earlier.name ≠ name
  first_of_lookup : ∀ name span, seen.lookup name = some span →
    ∃ line, line.span = span ∧ FirstOpened before ⟨name, line⟩

namespace Knows

variable {before : List (Line × Marker)} {opened : Option Opening} {seen : List (String × Span)}

theorem start : Knows [] none [] where
  opened_iff := by simp [not_openBehind_nil]
  fresh_iff := by simp [Opened]
  first_of_lookup := by simp

theorem not_open (h : Knows before none seen) (outer : Opening) : ¬ OpenBehind before outer := by
  simp [h.opened_iff]

/-- A marker that opens no region leaves the names as they are. -/
theorem opened_snoc_iff (h : Knows before opened seen) (pair : Line × Marker)
    (hpair : opened ≠ none ∨ pair.2.side = .ends) (earlier : Opening) :
    Opened (before ++ [pair]) earlier ↔ Opened before earlier := by
  rw [opened_snoc, or_iff_left]
  rintro ⟨rfl, hfree⟩
  obtain hopened | hside := hpair
  · obtain ⟨opening, rfl⟩ := Option.ne_none_iff_exists'.mp hopened
    exact hfree opening ((h.opened_iff opening).mpr rfl)
  · simp at hside

/-- A marker that opens no region and does not end the one that is open is passed over. -/
theorem pass (h : Knows before opened seen) (pair : Line × Marker)
    (hpair : opened ≠ none ∨ pair.2.side = .ends)
    (hends : ∀ opening ∈ opened, pair.2 ≠ ⟨.ends, opening.name⟩) :
    Knows (before ++ [pair]) opened seen where
  opened_iff := by
    intro opening
    rw [openBehind_snoc, h.opened_iff]
    constructor
    · rintro (⟨hopening, -⟩ | ⟨rfl, hfree⟩)
      · exact hopening
      · obtain hopened | hside := hpair
        · obtain ⟨outer, rfl⟩ := Option.ne_none_iff_exists'.mp hopened
          exact absurd ((h.opened_iff outer).mpr rfl) (hfree outer)
        · simp at hside
    · intro hopening
      exact .inl ⟨hopening, hends opening hopening⟩
  fresh_iff := by
    intro name
    simp only [h.fresh_iff, h.opened_snoc_iff pair hpair]
  first_of_lookup := by
    intro name span hspan
    obtain ⟨line, hline, hfirst⟩ := h.first_of_lookup name span hspan
    exact ⟨line, hline, hfirst.snoc pair⟩

theorem stray (h : Knows before opened seen) (line : Line) {name : String}
    (hstray : ∀ opening ∈ opened, opening.name ≠ name) :
    Knows (before ++ [(line, ⟨.ends, name⟩)]) opened seen :=
  h.pass _ (.inr rfl) fun opening hopening => by simpa [eq_comm] using hstray opening hopening

/-- The end marker of the region that is open. -/
theorem close {opening : Opening} (h : Knows before (some opening) seen) (line : Line) :
    Knows (before ++ [(line, ⟨.ends, opening.name⟩)]) none seen where
  opened_iff := by
    intro other
    rw [openBehind_snoc, h.opened_iff]
    simp +contextual
  fresh_iff := by
    intro name
    simp only [h.fresh_iff, h.opened_snoc_iff (line, ⟨.ends, _⟩) (.inr rfl)]
  first_of_lookup := by
    intro name span hspan
    obtain ⟨first, hfirst, hopened⟩ := h.first_of_lookup name span hspan
    exact ⟨first, hfirst, hopened.snoc _⟩

theorem openBehind_begin (h : Knows before none seen) (line : Line) (name : String)
    (opening : Opening) : OpenBehind (before ++ [(line, ⟨.begins, name⟩)]) opening ↔
      some (⟨name, line⟩ : Opening) = some opening := by
  rw [openBehind_snoc]
  simp only [h.not_open, false_and, false_or, not_false_eq_true, implies_true, and_true,
    Prod.mk.injEq, Marker.mk.injEq, true_and, Option.some.injEq]
  cases opening
  simp [and_comm]

/-- A begin marker of a name that was opened before. -/
theorem reopen (h : Knows before none seen) {name : String} {span : Span}
    (hspan : seen.lookup name = some span) (line : Line) :
    Knows (before ++ [(line, ⟨.begins, name⟩)]) (some ⟨name, line⟩) seen where
  opened_iff := h.openBehind_begin line name
  fresh_iff := by
    intro other
    rw [h.fresh_iff]
    simp only [opened_snoc, or_imp, forall_and]
    refine (and_iff_left_of_imp fun hfresh => ?_).symm
    rintro opening ⟨hopening, -⟩ rfl
    obtain ⟨first, -, before', after, rfl, hfree, -⟩ := h.first_of_lookup name span hspan
    simp only [Prod.mk.injEq, Marker.mk.injEq, true_and] at hopening
    exact hfresh ⟨name, first⟩ ⟨before', after, rfl, hfree⟩ hopening.2
  first_of_lookup := by
    intro other span hspan
    obtain ⟨first, hfirst, hopened⟩ := h.first_of_lookup other span hspan
    exact ⟨first, hfirst, hopened.snoc _⟩

/-- A begin marker of a new name. -/
theorem begin (h : Knows before none seen) {name : String} (hname : seen.lookup name = none)
    (line : Line) : Knows (before ++ [(line, ⟨.begins, name⟩)]) (some ⟨name, line⟩)
      (seen ++ [(name, line.span)]) where
  opened_iff := h.openBehind_begin line name
  fresh_iff := by
    intro other
    simp only [opened_snoc, or_imp, forall_and, ← h.fresh_iff]
    constructor
    · intro hother
      obtain ⟨hother, hne⟩ := lookup_snoc_eq_none hother
      refine ⟨hother, ?_⟩
      rintro opening ⟨hopening, -⟩ rfl
      simp only [Prod.mk.injEq, Marker.mk.injEq, true_and] at hopening
      exact hne hopening.2.symm
    · rintro ⟨hother, hne⟩
      exact lookup_snoc_of_ne _ hother fun hsame =>
        hne ⟨name, line⟩ ⟨rfl, h.not_open⟩ hsame.symm
  first_of_lookup := by
    intro other span hspan
    rw [List.lookup_append] at hspan
    cases hother : seen.lookup other with
    | some known =>
      rw [hother, Option.some_or, Option.some.injEq] at hspan
      obtain ⟨first, hfirst, hopened⟩ := h.first_of_lookup other known hother
      exact ⟨first, hspan ▸ hfirst, hopened.snoc _⟩
    | none =>
      rw [hother, Option.none_or, List.lookup_cons] at hspan
      split at hspan
      · rename_i hsame
        obtain rfl : other = name := by simpa using hsame
        exact ⟨line, by simpa using hspan, before, [], rfl, h.not_open,
          (h.fresh_iff other).mp hother⟩
      · simp at hspan

end Knows

/-- An end marker closes the region that is open, or else it belongs to none. -/
theorem closes_or_stray (opened : Option Opening) (name : String) :
    (∃ opening, opened = some opening ∧ opening.name = name) ∨
      ∀ opening ∈ opened, opening.name ≠ name := by
  rw [or_iff_not_imp_left]
  rintro hnone opening hopening rfl
  exact hnone ⟨opening, hopening, rfl⟩

theorem reported_pairUp (document : Text) {before rest : List (Line × Marker)}
    {opened : Option Opening} {seen : List (String × Span)} (h : Knows before opened seen) :
    Reported before rest (pairUp document opened seen rest).diagnostics := by
  induction rest generalizing before opened seen with
  | nil =>
    cases opened with
    | none => exact .closed before h.not_open
    | some opening =>
      exact .unterminated before opening _ ((h.opened_iff opening).mpr rfl) ⟨rfl, rfl, rfl, rfl⟩
  | cons pair rest ih =>
    obtain ⟨line, side, name⟩ := pair
    cases side with
    | begins =>
      cases opened with
      | some outer =>
        have hpass := ih (h.pass (line, ⟨.begins, name⟩) (.inl (by simp)) (by simp))
        exact .marker (.nested line name outer _ ((h.opened_iff outer).mpr rfl)
          ⟨rfl, rfl, rfl, rfl⟩) hpass
      | none =>
        cases hname : seen.lookup name with
        | some span =>
          obtain ⟨first, rfl, hfirst⟩ := h.first_of_lookup name span hname
          rw [pairUp, hname]
          exact .marker (.duplicate line ⟨name, first⟩ _ h.not_open hfirst ⟨rfl, rfl, rfl, rfl⟩)
            (ih (h.reopen hname line))
        | none =>
          rw [pairUp, hname]
          exact .marker (.opens line name h.not_open ((h.fresh_iff name).mp hname))
            (ih (h.begin hname line))
    | ends =>
      obtain ⟨opening, rfl, rfl⟩ | hstray := closes_or_stray opened name
      · rw [pairUp_ends opening rfl]
        exact .marker (.closes line opening ((h.opened_iff opening).mpr rfl)) (ih (h.close line))
      · rw [pairUp_stray hstray]
        refine .marker (.stray line name _ (fun opening hopening => ?_) ⟨rfl, rfl, rfl, rfl⟩)
          (ih (h.stray line hstray))
        exact hstray opening ((h.opened_iff opening).mp hopening)

/-- The walk finds an error unless the markers that are left are unambiguous and new. -/
theorem fails_pairUp (document : Text) {before rest : List (Line × Marker)}
    {opened : Option Opening} {seen : List (String × Span)} (h : Knows before opened seen) :
    (pairUp document opened seen rest).fails = false ↔
      BeginsOutside before rest ∧ (beginNames rest).Nodup ∧
        ∀ name ∈ beginNames rest, seen.lookup name = none := by
  induction rest generalizing before opened seen with
  | nil => cases opened <;> simp [pairUp, beginsOutside_nil, Findings.fails, Findings.empty]
  | cons pair rest ih =>
    obtain ⟨line, side, name⟩ := pair
    rw [beginsOutside_cons]
    cases side with
    | begins =>
      rw [beginNames_begins, List.nodup_cons, List.forall_mem_cons]
      cases opened with
      | some outer =>
        have hopen : OpenBehind before outer := (h.opened_iff outer).mpr rfl
        rw [pairUp_begins_inside]
        refine ⟨fun hfails => by contradiction, ?_⟩
        rintro ⟨⟨houtside, -⟩, -⟩
        exact absurd hopen (houtside rfl outer)
      | none =>
        by_cases hname : seen.lookup name = none
        · have hfresh : (∀ other ∈ beginNames rest,
              (seen ++ [(name, line.span)]).lookup other = none) ↔
              name ∉ beginNames rest ∧ ∀ other ∈ beginNames rest, seen.lookup other = none := by
            constructor
            · intro hall
              exact ⟨fun hmem => (lookup_snoc_eq_none (hall name hmem)).2 rfl,
                fun other hmem => (lookup_snoc_eq_none (hall other hmem)).1⟩
            · rintro ⟨hnew, hall⟩ other hmem
              exact lookup_snoc_of_ne _ (hall other hmem) (by rintro rfl; exact hnew hmem)
          rw [pairUp_begins hname, ih (h.begin hname line), hfresh]
          simp only [h.not_open, not_false_eq_true, implies_true, true_and, hname]
          tauto
        · simp [pairUp_begins_again hname, hname]
    | ends =>
      rw [beginNames_ends]
      obtain ⟨opening, rfl, rfl⟩ | hstray := closes_or_stray opened name
      · rw [pairUp_ends opening rfl, Findings.fails_cons, ih (h.close line)]
        simp
      · rw [pairUp_stray hstray, Findings.fails_warn, isError_strayEnd, Bool.false_or,
          ih (h.stray line hstray)]
        simp

/-! ### Regions -/

theorem Delimits.pass {size : Nat} {opening : Opening} {rest : List (Line × Marker)}
    {region : Region} (h : Delimits size opening rest region) {pair : Line × Marker}
    (hpair : pair.2 ≠ ⟨.ends, opening.name⟩) : Delimits size opening (pair :: rest) region := by
  cases h with
  | closed between beyond closer content hbetween =>
    exact .closed (pair :: between) beyond closer content
      (List.forall_mem_cons.mpr ⟨hpair, hbetween⟩)
  | unterminated after content hafter =>
    exact .unterminated (pair :: rest) content (List.forall_mem_cons.mpr ⟨hpair, hafter⟩)

/-- A walk without an error finds the region that is open and one for each begin marker. -/
theorem located_pairUp (document : Text) {opened : Option Opening} {seen : List (String × Span)}
    {rest : List (Line × Marker)} (h : (pairUp document opened seen rest).fails = false) :
    ∃ first regions, (pairUp document opened seen rest).records = first.toList ++ regions ∧
      Option.Rel (fun opening => Delimits (Text.size document) opening rest) opened first ∧
      Located (Text.size document) rest regions := by
  induction rest generalizing opened seen with
  | nil =>
    cases opened with
    | none => exact ⟨none, [], rfl, .none, .nil⟩
    | some opening =>
      exact ⟨some _, [], rfl, .some (.unterminated [] _ (List.forall_mem_nil _)), .nil⟩
  | cons pair rest ih =>
    obtain ⟨line, side, name⟩ := pair
    cases side with
    | begins =>
      cases opened with
      | some outer =>
        rw [pairUp_begins_inside] at h
        contradiction
      | none =>
        by_cases hname : seen.lookup name = none
        · rw [pairUp_begins hname] at h ⊢
          obtain ⟨_, regions, hrecords, @⟨_, region, hdelimits⟩, hlocated⟩ := ih h
          exact ⟨none, region :: regions, hrecords, .none, .begins line name hdelimits hlocated⟩
        · rw [pairUp_begins_again hname] at h
          contradiction
    | ends =>
      obtain ⟨opening, rfl, rfl⟩ | hstray := closes_or_stray opened name
      · rw [pairUp_ends opening rfl] at h ⊢
        obtain ⟨_, regions, hrecords, ⟨⟩, hlocated⟩ := ih h
        exact ⟨some _, regions, congrArg (List.cons _) hrecords,
          .some (.closed [] rest line _ (List.forall_mem_nil _)), .ends line _ hlocated⟩
      · rw [pairUp_stray hstray] at h ⊢
        obtain ⟨first, regions, hrecords, hfirst, hlocated⟩ := ih h
        refine ⟨first, regions, hrecords, ?_, .ends line name hlocated⟩
        cases hfirst with
        | none => exact .none
        | some hdelimits =>
          exact .some (hdelimits.pass (by simpa [eq_comm] using hstray _ rfl))

theorem countP_pairUp (document : Text) (opened : Option Opening) (seen : List (String × Span))
    (rest : List (Line × Marker)) :
    (pairUp document opened seen rest).diagnostics.countP
        (fun diagnostic => diagnostic.code.map Code.text = some "E004") =
      (pairUp document opened seen rest).records.countP fun region => !region.terminated := by
  induction rest generalizing opened seen with
  | nil => cases opened <;> rfl
  | cons pair rest ih =>
    obtain ⟨line, side, name⟩ := pair
    cases side with
    | begins =>
      cases opened with
      | some outer => simpa [pairUp, Findings.warn, nested, Code.text] using ih (some outer) seen
      | none =>
        cases hname : seen.lookup name with
        | some first => simpa [pairUp, hname, Findings.warn, duplicate, Code.text] using ih _ seen
        | none => simpa [pairUp, hname] using ih _ _
    | ends =>
      obtain ⟨opening, rfl, rfl⟩ | hstray := closes_or_stray opened name
      · rw [pairUp_ends opening rfl]
        simpa [Findings.cons, Opening.close] using ih none seen
      · rw [pairUp_stray hstray]
        simpa [Findings.warn, strayEnd, Code.text] using ih opened seen

end Region

namespace Layout

/-- The regions of a layout follow each other, and only the last one can lack its end marker. -/
theorem pairwise_regions {layout : Layout} (hproper : layout.Proper) (start : Nat) :
    (∀ region ∈ layout.regions start, start ≤ region.range.start) ∧
      (layout.regions start).Pairwise fun first second =>
        first.terminated = true ∧ first.range.stop ≤ second.range.start := by
  induction layout generalizing start with
  | nil => simp [regions]
  | cons stretch rest ih =>
    obtain ⟨-, hclosed, hrest⟩ := hproper
    cases stretch with
    | plain piece =>
      obtain ⟨hstart, hpairwise⟩ := ih hrest (start + Text.size piece)
      exact ⟨fun region hregion => by have := hstart region hregion; omega, hpairwise⟩
    | region name opener content closer =>
      obtain ⟨hstart, hpairwise⟩ :=
        ih hrest (start + Text.size (Stretch.region name opener content closer).text)
      rw [regions, List.forall_mem_cons, List.pairwise_cons]
      refine ⟨⟨Nat.le_refl start, fun region hregion => ?_⟩, fun region hregion => ⟨?_, ?_⟩,
        hpairwise⟩
      · have := hstart region hregion
        omega
      · refine (hclosed ?_).1
        rintro rfl
        simp [regions] at hregion
      · exact hstart region hregion

/-- A region of a layout holds the text between its marker lines. -/
theorem readFrom_of_mem_regions {document : Text} (before : Text) {layout : Layout}
    (hdocument : document = before ++ layout.text) :
    ∀ region ∈ layout.regions (Text.size before), region.ReadFrom document := by
  induction layout generalizing before with
  | nil => exact List.forall_mem_nil _
  | cons stretch rest ih =>
    have hrest := ih (before ++ stretch.text) (by simp [hdocument])
    rw [Text.size_append] at hrest
    cases stretch with
    | plain piece => exact hrest
    | region name opener content closer =>
      rw [regions, List.forall_mem_cons]
      refine ⟨⟨before ++ opener, closer.getD [] ++ text rest, ?_, ?_, ?_⟩, hrest⟩ <;>
        simp [hdocument, Stretch.text, Region.placed]

end Layout

namespace Region

/-- A document is accepted if and only if its markers are unambiguous. It then has one region for
each begin marker, in their order, with what stands between its marker lines. They do not overlap,
each but the last one is closed, and there is one warning for a region that is not. Whether the
document is accepted or not, the findings are those about its markers, one by one, and the one
about the region that is open in the end. -/
theorem ofDocument_decides (document : Text) :
    let markers := (Line.scan document).filterMap fun line =>
      (Marker.parse? line.text).map fun marker => (line, marker)
    match ofDocument document with
    | .ok found =>
      Unambiguous markers ∧ Reported [] markers found.diagnostics ∧
        Located (Text.size document) markers found.records ∧
        (∀ region ∈ found.records, region.ReadFrom document) ∧
        (found.records.Pairwise fun first second =>
          first.terminated = true ∧ first.range.stop ≤ second.range.start) ∧
        found.diagnostics.countP (fun diagnostic => diagnostic.code.map Code.text = some "E004") =
          found.records.countP fun region => !region.terminated
    | .error diagnostics => ¬ Unambiguous markers ∧ Reported [] markers diagnostics := by
  intro markers
  have hmarkers : markerLines document = markers := rfl
  have hfails : (pairUp document none [] markers).fails = false ↔ Unambiguous markers := by
    rw [fails_pairUp document .start]
    simp [Unambiguous]
  have hreported : Reported [] markers (pairUp document none [] markers).diagnostics :=
    reported_pairUp document .start
  cases hfound : ofDocument document with
  | ok found =>
    obtain ⟨layout, hproper, -, htext, hrecords⟩ := exists_layout hfound
    simp only [ofDocument, hmarkers] at hfound
    split at hfound
    · contradiction
    · rename_i herrors
      have hpassed : (pairUp document none [] markers).fails = false := by
        simpa [Findings.fails] using herrors
      obtain rfl := Except.ok.inj hfound
      obtain ⟨_, regions, hregions, ⟨⟩, hlocated⟩ := located_pairUp document hpassed
      have hread : ∀ region ∈ layout.regions 0, region.ReadFrom document :=
        Layout.readFrom_of_mem_regions [] htext.symm
      exact ⟨hfails.mp hpassed, hreported, hregions ▸ hlocated, hrecords ▸ hread,
        hrecords ▸ (Layout.pairwise_regions hproper 0).2, countP_pairUp document none [] markers⟩
  | error diagnostics =>
    simp only [ofDocument, hmarkers] at hfound
    split at hfound
    · rename_i herrors
      obtain rfl := Except.error.inj hfound
      refine ⟨fun hunambiguous => ?_, hreported⟩
      have hpassed := hfails.mpr hunambiguous
      rw [Findings.fails] at hpassed
      rw [hpassed] at herrors
      contradiction
    · contradiction

end Region
end DiagramSync
