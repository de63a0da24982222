import DiagramSync.Entity.Entry
import DiagramSync.Proofs.Document.Scan
import DiagramSync.Proofs.Findings

/-!
The entries of a section, said without a walk over its lines: there is an entry for each named
bullet, with the indented lines below it, and of the entries with one name only the first is kept.
-/

namespace DiagramSync

open Text

namespace EntityEntry

/-! ### Lines of an entry -/

/-- Returns `true` for a line that does not end an entry. -/
def staysOpen (line : Line) : Bool :=
  !line.isShown || (!isOuterBullet line.text && line.beginsIndented)

/-- The indented lines that belong to a bullet, out of the lines below it. -/
def continuation (lines : List Line) : List Line :=
  (lines.takeWhile staysOpen).filter Line.isShown

/-- The entry of a bullet with the text of the lines below. -/
def withLines (entry : EntityEntry) (lines : List Line) : EntityEntry :=
  { entry with
    body := entry.body ++ (continuation lines).flatMap fun line => '\n' :: trim line.text }

/-- The entries of all named bullets, in order. -/
def listed : List Line → List EntityEntry
  | [] => []
  | line :: rest =>
    if line.isShown && isOuterBullet line.text then
      ((ofBullet? line).map fun entry => entry.withLines rest).toList ++ listed rest
    else
      listed rest

/-- The entries that do not have the name of one in front of them or of one that is closed. -/
def fresh (closed : List EntityEntry) : List EntityEntry → List EntityEntry
  | [] => []
  | entry :: rest =>
    if closed.any fun known => known.name == entry.name then
      fresh closed rest
    else
      entry :: fresh (closed ++ [entry]) rest

theorem withLines_nil (entry : EntityEntry) : entry.withLines [] = entry := by
  simp [withLines, continuation]

theorem withLines_cons (entry : EntityEntry) (line : Line) (rest : List Line) :
    entry.withLines (line :: rest) =
      if !line.isShown then entry.withLines rest
      else if !isOuterBullet line.text && line.beginsIndented then
        (entry.addLine line.text).withLines rest
      else entry := by
  cases hshown : line.isShown with
  | false => simp [withLines, continuation, staysOpen, hshown]
  | true =>
    cases hindented : !isOuterBullet line.text && line.beginsIndented <;>
      simp [withLines, continuation, staysOpen, hshown, hindented, addLine]

/-! ### Collection -/

theorem span_of_ofBullet?_eq_some {line : Line} {entry : EntityEntry}
    (h : ofBullet? line = some entry) : entry.span = line.span := by
  rw [ofBullet?] at h
  split at h
  · dsimp only at h
    split at h
    · contradiction
    · obtain rfl := Option.some.inj h
      rfl
  · contradiction

theorem records_close (opened : Option EntityEntry) (closed : List EntityEntry)
    {next : List EntityEntry → Findings EntityEntry} {others : List EntityEntry}
    (hnext : ∀ closed, (next closed).records = fresh closed others) :
    (close opened closed next).records = fresh closed (opened.toList ++ others) := by
  cases opened with
  | none => exact hnext closed
  | some entry =>
    rw [close, Option.toList_some, List.singleton_append, fresh]
    cases hfind : closed.find? fun known => known.name == entry.name with
    | some first =>
      rw [if_pos (List.any_eq_true.mpr ⟨first, List.mem_of_find?_eq_some hfind,
        List.find?_some hfind⟩)]
      exact hnext closed
    | none =>
      rw [if_neg (by simpa using hfind)]
      exact congrArg (entry :: ·) (hnext (closed ++ [entry]))

theorem close_of_nodup {opened : Option EntityEntry} {closed : List EntityEntry}
    (h : ((closed ++ opened.toList).map EntityEntry.name).Nodup)
    (next : List EntityEntry → Findings EntityEntry) :
    close opened closed next = ⟨opened.toList ++ (next (closed ++ opened.toList)).records,
      (next (closed ++ opened.toList)).diagnostics⟩ := by
  cases opened with
  | none =>
    rw [Option.toList_none, List.append_nil]
    rfl
  | some entry =>
    rw [List.map_append, List.nodup_append] at h
    have hfind : (closed.find? fun known => known.name == entry.name) = none := by
      rw [List.find?_eq_none]
      intro known hknown
      have hne := h.2.2 known.name (List.mem_map_of_mem hknown) entry.name (by simp)
      simpa using hne
    rw [close, hfind]
    rfl

theorem collect_cons (opened : Option EntityEntry) (closed : List EntityEntry) (line : Line)
    (rest : List Line) :
    collect opened closed (line :: rest) =
      if !line.isShown then
        collect opened closed rest
      else if isOuterBullet line.text then
        close opened closed fun closed =>
          match ofBullet? line with
          | some entry => collect (some entry) closed rest
          | none => (collect none closed rest).warn (unnamed line)
      else if line.beginsIndented then
        collect (opened.map fun entry => entry.addLine line.text) closed rest
      else
        close opened closed fun closed => collect none closed rest := by
  rw [collect, Line.isShown]
  cases line.fenced <;> cases line.isBlank <;> rfl

/-- The induction is on the lines. The entry that is open takes what belongs to it from the lines
that are left. -/
theorem records_collect (opened : Option EntityEntry) (closed : List EntityEntry)
    (lines : List Line) :
    (collect opened closed lines).records =
      fresh closed ((opened.map fun entry => entry.withLines lines).toList ++ listed lines) := by
  induction lines generalizing opened closed with
  | nil =>
    have hnext : ∀ closed, (.empty : Findings EntityEntry).records = fresh closed [] :=
      fun _ => rfl
    rw [collect, records_close opened closed hnext]
    cases opened <;> simp [listed, withLines_nil]
  | cons line rest ih =>
    simp only [collect_cons, listed, withLines_cons]
    cases hshown : line.isShown with
    | false => exact ih opened closed
    | true =>
      cases hbullet : isOuterBullet line.text with
      | true =>
        have hnext : ∀ closed, (match ofBullet? line with
            | some entry => collect (some entry) closed rest
            | none => (collect none closed rest).warn (unnamed line)).records =
              fresh closed (((ofBullet? line).map fun entry => entry.withLines rest).toList ++
                listed rest) := by
          intro closed
          cases ofBullet? line <;> simp [ih]
        refine (records_close opened closed hnext).trans ?_
        cases opened <;> rfl
      | false =>
        cases hindented : line.beginsIndented with
        | true => cases opened <;> exact ih _ closed
        | false =>
          have hnext : ∀ closed, (collect none closed rest).records = fresh closed (listed rest) :=
            fun closed => ih none closed
          refine (records_close opened closed hnext).trans ?_
          cases opened <;> rfl

theorem records_ofSection (lines : List Line) :
    (ofSection lines).records = fresh [] (listed lines) :=
  records_collect none [] lines

/-! ### Names and texts -/

theorem fresh_sublist (closed entries : List EntityEntry) :
    (fresh closed entries).Sublist entries := by
  induction entries generalizing closed with
  | nil => exact List.Sublist.slnil
  | cons entry rest ih =>
    rw [fresh]
    split
    · exact (ih closed).cons entry
    · exact (ih (closed ++ [entry])).cons_cons entry

theorem name_ne_of_mem_fresh {closed entries : List EntityEntry} {entry : EntityEntry}
    (h : entry ∈ fresh closed entries) : ∀ known ∈ closed, known.name ≠ entry.name := by
  induction entries generalizing closed with
  | nil => contradiction
  | cons first rest ih =>
    rw [fresh] at h
    split at h
    · exact ih h
    · rename_i hfirst
      obtain rfl | h := List.mem_cons.mp h
      · simpa using hfirst
      · exact fun known hknown => ih h known (List.mem_append_left _ hknown)

theorem nodup_fresh (closed entries : List EntityEntry) :
    ((fresh closed entries).map EntityEntry.name).Nodup := by
  induction entries generalizing closed with
  | nil => exact List.nodup_nil
  | cons entry rest ih =>
    rw [fresh]
    split
    · exact ih closed
    · rw [List.map_cons, List.nodup_cons]
      refine ⟨fun hmem => ?_, ih _⟩
      obtain ⟨other, hother, hname⟩ := List.mem_map.mp hmem
      exact name_ne_of_mem_fresh hother entry (by simp) hname.symm

theorem nodup_names_ofSection (lines : List Line) :
    ((ofSection lines).records.map EntityEntry.name).Nodup := by
  rw [records_ofSection]
  exact nodup_fresh [] _

/-- The entry has the name of a bullet among the lines, and its text is the description there with
the lines that belong to it. -/
def StandsIn (lines : List Line) (entry : EntityEntry) : Prop :=
  ∃ before line rest raw description, lines = before ++ line :: rest ∧ line.isShown = true ∧
    isOuterBullet line.text = true ∧ bullet? line.text = some (raw, description) ∧
    entry.name = String.ofList (bareName raw) ∧
    entry.body = description ++ (continuation rest).flatMap fun line => '\n' :: trim line.text

theorem StandsIn.cons {lines : List Line} {entry : EntityEntry} (h : StandsIn lines entry)
    (line : Line) : StandsIn (line :: lines) entry := by
  obtain ⟨before, bullet, rest, raw, description, rfl, hread⟩ := h
  exact ⟨line :: before, bullet, rest, raw, description, rfl, hread⟩

theorem standsIn_of_mem_listed {lines : List Line} {entry : EntityEntry}
    (h : entry ∈ listed lines) : StandsIn lines entry := by
  induction lines with
  | nil => contradiction
  | cons line rest ih =>
    rw [listed] at h
    split at h
    · rename_i hline
      obtain ⟨hshown, houter⟩ := Bool.and_eq_true_iff.mp hline
      obtain h | h := List.mem_append.mp h
      · obtain ⟨bullet, hbullet, rfl⟩ := Option.map_eq_some_iff.mp (Option.mem_toList.mp h)
        rw [ofBullet?] at hbullet
        split at hbullet
        · rename_i raw description hread
          dsimp only at hbullet
          split at hbullet
          · contradiction
          · obtain rfl := Option.some.inj hbullet
            exact ⟨[], line, rest, raw, description, rfl, hshown, houter, hread, rfl, rfl⟩
        · contradiction
      · exact (ih h).cons line
    · exact (ih h).cons line

theorem standsIn_of_mem_ofSection {lines : List Line} {entry : EntityEntry}
    (h : entry ∈ (ofSection lines).records) : StandsIn lines entry := by
  rw [records_ofSection] at h
  exact standsIn_of_mem_listed ((fresh_sublist [] (listed lines)).subset h)

theorem name_ne_empty_of_mem_listed {lines : List Line} {entry : EntityEntry}
    (h : entry ∈ listed lines) : entry.name ≠ "" := by
  induction lines with
  | nil => contradiction
  | cons line rest ih =>
    rw [listed] at h
    split at h
    · obtain h | h := List.mem_append.mp h
      · obtain ⟨bullet, hbullet, rfl⟩ := Option.map_eq_some_iff.mp (Option.mem_toList.mp h)
        rw [ofBullet?] at hbullet
        split at hbullet
        · dsimp only at hbullet
          split at hbullet
          · contradiction
          · rename_i hname
            obtain rfl := Option.some.inj hbullet
            simpa [withLines] using hname
        · contradiction
      · exact ih h
    · exact ih h

theorem name_ne_empty_of_mem_ofSection {lines : List Line} {entry : EntityEntry}
    (h : entry ∈ (ofSection lines).records) : entry.name ≠ "" := by
  rw [records_ofSection] at h
  exact name_ne_empty_of_mem_listed ((fresh_sublist [] (listed lines)).subset h)

/-! ### Warnings -/

/-- A warning about bullets. What it points at are the places of lines that were read and of
entries that were there when the reading began. -/
inductive Warns (p : Span → Prop) : Diagnostic → Prop where
  | unnamed (line : Line) : p line.span → Warns p (unnamed line)
  | duplicate (entry first : EntityEntry) :
      p entry.span → p first.span → Warns p (entry.duplicate first)

section Warns

variable {p : Span → Prop} {diagnostic : Diagnostic} {opened : Option EntityEntry}
  {closed : List EntityEntry}

theorem warns_of_mem_close {next : List EntityEntry → Findings EntityEntry}
    (hopened : ∀ entry ∈ opened, p entry.span) (hclosed : ∀ entry ∈ closed, p entry.span)
    (hnext : ∀ closed : List EntityEntry, (∀ entry ∈ closed, p entry.span) →
      diagnostic ∈ (next closed).diagnostics → Warns p diagnostic)
    (h : diagnostic ∈ (close opened closed next).diagnostics) : Warns p diagnostic := by
  cases opened with
  | none => exact hnext closed hclosed h
  | some entry =>
    have hentry := hopened entry rfl
    rw [close] at h
    split at h
    · rename_i first hfind
      obtain rfl | h := List.mem_cons.mp h
      · exact .duplicate entry first hentry (hclosed first (List.mem_of_find?_eq_some hfind))
      · exact hnext closed hclosed h
    · refine hnext (closed ++ [entry]) ?_ h
      rw [List.forall_mem_append, List.forall_mem_singleton]
      exact ⟨hclosed, hentry⟩

/-- There are no other warnings. The induction is on the lines; an entry keeps the place of its
bullet while it is open and when it is closed. -/
theorem warns_of_mem_collect {lines : List Line} (hopened : ∀ entry ∈ opened, p entry.span)
    (hclosed : ∀ entry ∈ closed, p entry.span) (hlines : ∀ line ∈ lines, p line.span)
    (h : diagnostic ∈ (collect opened closed lines).diagnostics) : Warns p diagnostic := by
  induction lines generalizing opened closed with
  | nil =>
    exact warns_of_mem_close hopened hclosed (fun _ _ hmem => absurd hmem List.not_mem_nil) h
  | cons line rest ih =>
    rw [List.forall_mem_cons] at hlines
    obtain ⟨hline, hrest⟩ := hlines
    have hnone : ∀ entry ∈ (none : Option EntityEntry), p entry.span := by simp
    rw [collect_cons] at h
    split at h
    · exact ih hopened hclosed hrest h
    · split at h
      · refine warns_of_mem_close hopened hclosed (fun closed hclosed hmem => ?_) h
        split at hmem
        · rename_i entry hbullet
          refine ih (fun other hother => ?_) hclosed hrest hmem
          obtain rfl := Option.mem_some_iff.mp hother
          rwa [span_of_ofBullet?_eq_some hbullet]
        · obtain rfl | hmem := List.mem_cons.mp hmem
          · exact .unnamed line hline
          · exact ih hnone hclosed hrest hmem
      · split at h
        · refine ih (fun entry hentry => ?_) hclosed hrest h
          obtain ⟨first, hfirst, rfl⟩ := Option.map_eq_some_iff.mp hentry
          exact hopened first hfirst
        · exact warns_of_mem_close hopened hclosed
            (fun closed hclosed hmem => ih hnone hclosed hrest hmem) h

end Warns

theorem code_of_mem_collect {opened : Option EntityEntry} {closed : List EntityEntry}
    {lines : List Line} {diagnostic : Diagnostic}
    (h : diagnostic ∈ (collect opened closed lines).diagnostics) :
    diagnostic.code = some .duplicateEntity ∨ diagnostic.code = some .unnamedEntity := by
  cases warns_of_mem_collect (p := fun _ => True) (by simp) (by simp) (by simp) h with
  | unnamed line => exact .inr rfl
  | duplicate entry first => exact .inl rfl

/-! ### No bullet is lost -/

/-- Each bullet has an entry or is warned of: for want of a name or because the name is taken. -/
def accounted (found : Findings EntityEntry) : Nat :=
  found.records.length + (found.withCode .unnamedEntity).length +
    (found.withCode .duplicateEntity).length

theorem accounted_close (opened : Option EntityEntry) (closed : List EntityEntry)
    {next : List EntityEntry → Findings EntityEntry} {others : Nat}
    (hnext : ∀ closed, accounted (next closed) = others) :
    accounted (close opened closed next) = opened.toList.length + others := by
  cases opened with
  | none => rw [close, hnext, Option.toList_none, List.length_nil, Nat.zero_add]
  | some entry =>
    rw [close, Option.toList_some, List.length_singleton]
    split
    · rw [← hnext closed]
      simp [accounted, duplicate]
      omega
    · rw [← hnext (closed ++ [entry])]
      simp [accounted]
      omega

theorem isShown_eq_of_isOuterBullet {line : Line} (h : isOuterBullet line.text = true) :
    line.isShown = !line.fenced := by
  have hblank : line.isBlank = false := by
    rw [isOuterBullet.eq_def] at h
    split at h
    · rename_i mark c rest htext
      have hmark : isWhite mark = false := by
        simp only [isBulletMark, Bool.and_eq_true, Bool.or_eq_true, beq_iff_eq] at h
        obtain ⟨(rfl | rfl) | rfl, -⟩ := h <;> rfl
      simp [Line.isBlank, Text.isBlank, htext, hmark]
    · contradiction
  rw [Line.isShown, hblank]
  cases line.fenced <;> rfl

/-- The induction is on the lines. The entry that is open was counted with its bullet. -/
theorem accounted_collect (opened : Option EntityEntry) (closed : List EntityEntry)
    (lines : List Line) :
    accounted (collect opened closed lines) = opened.toList.length +
      lines.countP fun line => !line.fenced && isOuterBullet line.text := by
  induction lines generalizing opened closed with
  | nil => exact accounted_close opened closed fun _ => rfl
  | cons line rest ih =>
    rw [collect_cons, List.countP_cons]
    cases hbullet : isOuterBullet line.text with
    | true =>
      rw [isShown_eq_of_isOuterBullet hbullet]
      cases hfenced : line.fenced with
      | true => simpa using ih opened closed
      | false =>
        have hnext : ∀ closed, accounted (match ofBullet? line with
            | some entry => collect (some entry) closed rest
            | none => (collect none closed rest).warn (unnamed line)) =
              (rest.countP fun line => !line.fenced && isOuterBullet line.text) + 1 := by
          intro closed
          cases ofBullet? line with
          | some entry =>
            rw [ih, Option.toList_some, List.length_singleton, Nat.add_comm]
          | none =>
            have hrest := ih none closed
            simp [accounted, unnamed] at hrest ⊢
            omega
        simpa using accounted_close opened closed hnext
    | false =>
      cases hshown : line.isShown with
      | false => simpa using ih opened closed
      | true =>
        cases hindented : line.beginsIndented with
        | true =>
          have hrest := ih (opened.map fun entry => entry.addLine line.text) closed
          cases opened <;> simpa using hrest
        | false =>
          have hnext : ∀ closed, accounted (collect none closed rest) =
              rest.countP fun line => !line.fenced && isOuterBullet line.text := by
            intro closed
            rw [ih, Option.toList_none, List.length_nil, Nat.zero_add]
          simpa using accounted_close opened closed hnext

theorem accounted_ofSection (lines : List Line) :
    accounted (ofSection lines) =
      lines.countP fun line => !line.fenced && isOuterBullet line.text := by
  rw [ofSection, accounted_collect, Option.toList_none, List.length_nil, Nat.zero_add]

end EntityEntry

end DiagramSync
