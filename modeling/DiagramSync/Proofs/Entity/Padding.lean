import DiagramSync.Entity.OfDocument
import DiagramSync.Proofs.Document.Padding
import DiagramSync.Proofs.Findings

/-!
Inert lines do not change the entities that are read and the warnings on the way. They may end
an entry, so here it matters where they stand.
-/

namespace DiagramSync

open Text

namespace EntityEntry

/-- The entry without its place. -/
def unplaced (entry : EntityEntry) : EntityEntry :=
  { entry with span := ⟨0, 0⟩ }

/-! ### Closing -/

theorem find?_name_eq_none_congr {closed closed' : List EntityEntry}
    (h : closed.map unplaced = closed'.map unplaced) (name : String) :
    (closed.find? fun known => known.name == name) = none ↔
      (closed'.find? fun known => known.name == name) = none := by
  have hnames : ∀ entries : List EntityEntry,
      (entries.find? fun known => known.name == name) = none ↔
        ∀ entry ∈ entries.map unplaced, entry.name ≠ name := by
    intro entries
    simp [unplaced]
  rw [hnames, hnames, h]

theorem close_congr {opened opened' : Option EntityEntry} {closed closed' : List EntityEntry}
    (hopened : opened.map unplaced = opened'.map unplaced)
    (hclosed : closed.map unplaced = closed'.map unplaced)
    {next next' : List EntityEntry → Findings EntityEntry}
    (hnext : ∀ closed closed', closed.map unplaced = closed'.map unplaced →
      (next closed).unplaced unplaced = (next' closed').unplaced unplaced) :
    (close opened closed next).unplaced unplaced =
      (close opened' closed' next').unplaced unplaced := by
  cases opened with
  | none =>
    obtain rfl : opened' = none := by simpa using hopened.symm
    exact hnext closed closed' hclosed
  | some entry =>
    cases opened' with
    | none => simp at hopened
    | some entry' =>
      have hentry : entry.unplaced = entry'.unplaced := by simpa using hopened
      have hname : entry.name = entry'.name := by
        simp only [unplaced, mk.injEq] at hentry
        exact hentry.1
      have hnone := find?_name_eq_none_congr hclosed entry'.name
      simp only [close, hname]
      cases hfind : closed.find? fun known => known.name == entry'.name with
      | some first =>
        cases hfind' : closed'.find? fun known => known.name == entry'.name with
        | some first' =>
          have hduplicate : (entry.duplicate first).unplaced =
              (entry'.duplicate first').unplaced := by
            simp [duplicate, Diagnostic.unplaced, hname]
          simp only [Findings.unplaced_warn, hduplicate, hnext closed closed' hclosed]
        | none => simp [hfind, hfind'] at hnone
      | none =>
        rw [hnone.mp hfind]
        simp only [Findings.unplaced_cons, hentry]
        rw [hnext (closed ++ [entry]) (closed' ++ [entry']) (by simp [hclosed, hentry])]

/-! ### Collection -/

theorem unplaced_ofBullet? {line line' : Line} (htext : line'.text = line.text) :
    (ofBullet? line').map unplaced = (ofBullet? line).map unplaced := by
  simp only [ofBullet?, htext]
  split
  · split <;> rfl
  · rfl

theorem skipped_or_endsEntry {line : Line} (h : line.Inert) :
    (line.fenced || line.isBlank) = true ∨ line.EndsEntry := by
  by_cases hskip : (line.fenced || line.isBlank) = true
  · exact .inl hskip
  · simp only [Bool.or_eq_true, not_or, Bool.not_eq_true] at hskip
    have hmarker : line.text.head? = some '<' := by
      obtain hfenced | hempty | hmarker := h
      · simp [hfenced] at hskip
      · simp [Line.isBlank, Text.isBlank, hempty] at hskip
      · exact hmarker
    obtain ⟨rest, htext⟩ := List.head?_eq_some_iff.mp hmarker
    refine .inr ⟨hskip.1, hskip.2, ?_, ?_⟩
    · rw [htext]
      cases rest <;> simp [isOuterBullet, isBulletMark]
    · simp [Line.beginsIndented, htext, Text.isSpace]

theorem collect_cons_of_endsEntry {line : Line} (h : line.EndsEntry)
    (opened : Option EntityEntry) (closed : List EntityEntry) (rest : List Line) :
    collect opened closed (line :: rest) =
      close opened closed fun closed => collect none closed rest := by
  obtain ⟨hfenced, hblank, hbullet, hindented⟩ := h
  simp only [collect, hfenced, hblank, hbullet, hindented, Bool.or_self, Bool.false_eq_true,
    if_false]

theorem collect_of_endsEntry {lines : List Line} (h : ∀ next ∈ lines.head?, next.EndsEntry)
    (opened : Option EntityEntry) (closed : List EntityEntry) :
    collect opened closed lines = close opened closed fun closed => collect none closed lines := by
  cases lines with
  | nil => rfl
  | cons line rest =>
    have hnext := h line rfl
    rw [collect_cons_of_endsEntry hnext]
    congr 1
    funext closed
    rw [collect_cons_of_endsEntry hnext, close]

/-- The induction is on the padding. The entries that are open and closed on both sides are the
same but for their places, and none is open behind a line that ends one. -/
theorem collect_padded {ended : Prop} {lines lines' : List Line} (h : Padded ended lines lines')
    {opened opened' : Option EntityEntry} {closed closed' : List EntityEntry}
    (hopened : opened.map unplaced = opened'.map unplaced)
    (hclosed : closed.map unplaced = closed'.map unplaced) (hended : ended → opened = none) :
    (collect opened closed lines).unplaced unplaced =
      (collect opened' closed' lines').unplaced unplaced := by
  induction h generalizing opened opened' closed closed' with
  | nil ended => exact close_congr hopened hclosed fun _ _ _ => rfl
  | @pad ended lines lines' line hinert hplace _ ih =>
    obtain hskip | hends := skipped_or_endsEntry hinert
    · rw [collect, if_pos hskip]
      exact ih hopened hclosed hended
    · rw [collect_cons_of_endsEntry hends]
      obtain hfront | hbehind := hplace
      · obtain rfl := hended hfront
        obtain rfl : opened' = none := by simpa using hopened.symm
        exact ih rfl hclosed hended
      · rw [collect_of_endsEntry hbehind]
        exact close_congr hopened hclosed fun _ _ hclosed => ih rfl hclosed fun _ => rfl
  | @keep ended lines lines' line line' htext hfenced _ ih =>
    have hblank : line'.isBlank = line.isBlank := by rw [Line.isBlank, htext, Line.isBlank]
    have hindented : line'.beginsIndented = line.beginsIndented := by
      rw [Line.beginsIndented, htext, Line.beginsIndented]
    rw [collect, collect, hfenced, hblank, htext, hindented]
    split
    · rename_i hskip
      refine ih hopened hclosed fun hends => ?_
      simp [hends.1, hends.2.1] at hskip
    · split
      · rename_i hbullet
        have hnot : ¬ line.EndsEntry := fun hends => by simp [hends.2.2.1] at hbullet
        refine close_congr hopened hclosed fun _ _ hclosed => ?_
        have hentry := unplaced_ofBullet? htext
        cases hfirst : ofBullet? line with
        | some entry =>
          rw [hfirst, Option.map_some, Option.map_eq_some_iff] at hentry
          obtain ⟨entry', hentry', hsame⟩ := hentry
          rw [hentry']
          exact ih (by simp [hsame]) hclosed fun hends => absurd hends hnot
        | none =>
          rw [hfirst, Option.map_none, Option.map_eq_none_iff] at hentry
          have hunnamed : (unnamed line).unplaced = (unnamed line').unplaced := rfl
          simp only [hentry, Findings.unplaced_warn, hunnamed]
          rw [ih rfl hclosed fun _ => rfl]
      · split
        · rename_i hindent
          refine ih ?_ hclosed fun hends => ?_
          · cases opened <;> cases opened' <;>
              simp_all [unplaced, addLine]
          · simp [hends.2.2.2] at hindent
        · exact close_congr hopened hclosed fun _ _ hclosed => ih rfl hclosed fun _ => rfl

/-! ### Sections -/

theorem mem_head?_takeWhile {α : Type} {keep : α → Bool} {list : List α} {first : α}
    (h : first ∈ (list.takeWhile keep).head?) : first ∈ list.head? := by
  cases list with
  | nil => exact h
  | cons a rest =>
    rw [List.takeWhile_cons] at h
    split at h
    · exact h
    · contradiction

theorem sectionBody_padded {ended : Prop} {lines lines' : List Line}
    (h : Padded ended lines lines') (level : Nat) :
    Padded ended (sectionBody level lines) (sectionBody level lines') := by
  induction h with
  | nil ended => exact .nil ended
  | keep line line' htext hfenced _ ih =>
    simp only [sectionBody, List.takeWhile_cons, Line.ofLine?_congr htext hfenced] at ih ⊢
    cases Heading.ofLine? line with
    | none => exact .keep line line' htext hfenced ih
    | some heading =>
      by_cases hdeeper : level < heading.level
      · simp only [hdeeper, decide_true, if_true]
        exact .keep line line' htext hfenced ih
      · simp only [hdeeper, decide_false, Bool.false_eq_true, if_false]
        exact .nil _
  | pad line hinert hplace _ ih =>
    simp only [sectionBody, List.takeWhile_cons, hinert.ofLine?_eq_none, if_true] at ih ⊢
    exact .pad line hinert
      (hplace.imp id fun hnext next hmem => hnext next (mem_head?_takeWhile hmem)) ih

theorem section?_padded {ended : Prop} {lines lines' : List Line} (h : Padded ended lines lines') :
    (section? lines = none ∧ section? lines' = none) ∨
      ∃ ended body body', section? lines = some body ∧ section? lines' = some body' ∧
        Padded ended body body' := by
  induction h with
  | nil ended => exact .inl ⟨rfl, rfl⟩
  | pad line hinert hplace _ ih =>
    rw [section?, hinert.ofLine?_eq_none]
    exact ih
  | keep line line' htext hfenced hpadded ih =>
    rw [section?, section?, Line.ofLine?_congr htext hfenced]
    split
    · split
      · exact .inr ⟨_, _, _, rfl, rfl, sectionBody_padded hpadded _⟩
      · exact ih
    · exact ih

end EntityEntry

/-! ### Entities -/

namespace Entity

theorem declare_unplaced (entry : EntityEntry) (names : List Text) (hasPrimaryKey : Bool)
    (declarations : List Declaration) :
    (declare entry.unplaced names hasPrimaryKey declarations).unplaced id =
      (declare entry names hasPrimaryKey declarations).unplaced id := by
  induction declarations generalizing names hasPrimaryKey with
  | nil => rfl
  | cons declaration rest ih =>
    simp only [declare]
    split
    · simp only [Findings.unplaced_warn, ih]
      rfl
    · split
      · simp only [Findings.unplaced_warn, Findings.unplaced_cons, ih]
        rfl
      · simp only [Findings.unplaced_cons, ih]

theorem relationshipTo_unplaced (entry : EntityEntry) (target : String) (phrases : List Phrase) :
    (relationshipTo entry.unplaced target phrases).unplaced id =
      (relationshipTo entry target phrases).unplaced id := by
  cases phrases with
  | nil => rfl
  | cons first others =>
    simp only [relationshipTo]
    split <;> rfl

theorem map_unresolvedWarnings_unplaced (entry : EntityEntry) (mentions : List Mention) :
    (unresolvedWarnings entry.unplaced mentions).map Diagnostic.unplaced =
      (unresolvedWarnings entry mentions).map Diagnostic.unplaced := by
  simp only [unresolvedWarnings, List.map_filterMap]
  congr 1
  funext mention
  cases mention <;> rfl

theorem statedIn_unplaced (entry : EntityEntry) (known : List String) :
    (statedIn entry.unplaced known).unplaced id = (statedIn entry known).unplaced id := by
  have hrecords : ∀ target phrases, (relationshipTo entry.unplaced target phrases).records =
      (relationshipTo entry target phrases).records := fun target phrases => by
    simpa [Findings.unplaced] using
      congrArg Findings.records (relationshipTo_unplaced entry target phrases)
  have hdiagnostics : ∀ target phrases,
      (relationshipTo entry.unplaced target phrases).diagnostics.map Diagnostic.unplaced =
        (relationshipTo entry target phrases).diagnostics.map Diagnostic.unplaced :=
    fun target phrases =>
      congrArg Findings.diagnostics (relationshipTo_unplaced entry target phrases)
  simp only [Findings.unplaced, statedIn, List.map_append, List.map_flatMap, List.flatMap_map,
    hrecords, hdiagnostics, map_unresolvedWarnings_unplaced]
  rfl

theorem ofEntry_unplaced (known : List String) (entry : EntityEntry) :
    (ofEntry known entry.unplaced).unplaced id = (ofEntry known entry).unplaced id := by
  have hattributes : (declaredIn entry.unplaced).unplaced id = (declaredIn entry).unplaced id :=
    declare_unplaced entry [] false _
  have hrelationships := statedIn_unplaced entry known
  simp only [Findings.unplaced, List.map_id, Findings.mk.injEq] at hattributes hrelationships
  simp only [Findings.unplaced, ofEntry, List.map_append, hattributes, hrelationships]
  rfl

theorem ofEntries_unplaced (entries : List EntityEntry) :
    (ofEntries (entries.map EntityEntry.unplaced)).unplaced id =
      (ofEntries entries).unplaced id := by
  have hrecords : ∀ known entry, (ofEntry known entry.unplaced).records =
      (ofEntry known entry).records := fun known entry => by
    simpa [Findings.unplaced] using congrArg Findings.records (ofEntry_unplaced known entry)
  have hdiagnostics : ∀ known entry,
      (ofEntry known entry.unplaced).diagnostics.map Diagnostic.unplaced =
        (ofEntry known entry).diagnostics.map Diagnostic.unplaced :=
    fun known entry => congrArg Findings.diagnostics (ofEntry_unplaced known entry)
  simp only [Findings.unplaced, ofEntries, List.map_map, List.flatMap_map, List.map_flatMap,
    Function.comp_def, hrecords, hdiagnostics]
  rfl

theorem map_ofSection_padded {ended : Prop} {lines lines' : List Line}
    (h : Padded ended lines lines') :
    ((EntityEntry.section? lines).map ofSection).map (Findings.unplaced id) =
      ((EntityEntry.section? lines').map ofSection).map (Findings.unplaced id) := by
  obtain ⟨hnone, hnone'⟩ | ⟨ended, body, body', hbody, hbody', hpadded⟩ :=
    EntityEntry.section?_padded h
  · rw [hnone, hnone']
  · have hentries : (EntityEntry.ofSection body).unplaced EntityEntry.unplaced =
        (EntityEntry.ofSection body').unplaced EntityEntry.unplaced :=
      EntityEntry.collect_padded hpadded rfl rfl fun _ => rfl
    have hentities : (ofEntries (EntityEntry.ofSection body).records).unplaced id =
        (ofEntries (EntityEntry.ofSection body').records).unplaced id := by
      have hrecords := congrArg Findings.records hentries
      simp only [Findings.unplaced] at hrecords
      rw [← ofEntries_unplaced, hrecords, ofEntries_unplaced]
    simp only [Findings.unplaced, List.map_id, Findings.mk.injEq] at hentries hentities
    simp only [hbody, hbody', Option.map_some, Findings.unplaced, ofSection, List.map_append,
      List.map_id, hentries.2, hentities]

end Entity
end DiagramSync
