import DiagramSync.Proofs.Engine.Validation
import DiagramSync.Proofs.Update.OpenEnd

/-!
Whether a document is out of date, told from its text and from its regions. Edits do not cancel each
other out: an update that gives back the document as it is has found the region of each diagram in
it, so there was nothing to edit.
-/

namespace DiagramSync

open Text

namespace Update

/-! ### Updates that give back the document -/

section Layouts

variable {layout : Layout} {anchor : Kind → Anchor} {diagrams : List Diagram}

theorem getLast?_of_open (hproper : layout.Proper) {region : Region}
    (hregion : region ∈ layout.regions 0) (hopen : region.terminated = false) :
    (layout.regions 0).getLast? = some region := by
  obtain ⟨before, name, opener, content, closer, after, rfl, rfl⟩ :=
    Layout.exists_split_of_mem_regions hregion
  obtain rfl : closer = none := by
    simpa [Region.placed] using hopen
  obtain rfl := eq_nil_of_open hproper
  rw [Layout.regions_append]
  simp [Layout.regions]

/-- Either the updated document is refused, or every diagram has its region in it. -/
theorem error_or_exists_regions (hproper : layout.Proper) (hnodup : layout.names.Nodup)
    (hkinds : (diagrams.map Diagram.kind).Nodup)
    (hunmarked : ∀ diagram ∈ diagrams, diagram.Unmarked) :
    let update := ofDiagrams layout.text (layout.regions 0) anchor diagrams
    (∃ findings, Region.ofDocument update.text = .error findings) ∨
      ∃ found, Region.ofDocument update.text = .ok found ∧
        ∀ diagram ∈ diagrams, ∃ region,
          Region.named? found.records diagram.kind.name = some region ∧
            holds region (codeBlock diagram.markup) = true := by
  intro update
  by_cases hterminated : ∀ region ∈ layout.regions 0, region.terminated = true
  · obtain ⟨rest, hfits⟩ := exists_fits_of_terminated hproper hnodup hterminated anchor hkinds
    exact .inr (exists_regions_of_fits hproper hnodup hkinds hfits hunmarked)
  · simp only [not_forall, Bool.not_eq_true] at hterminated
    obtain ⟨last, hregion, hopen⟩ := hterminated
    have hlast := getLast?_of_open hproper hregion hopen
    by_cases hfirst : ClosesFirst layout.text (layout.regions 0) anchor diagrams last
    · exact .inr (exists_regions_of_closesFirst hproper hnodup hlast hopen hkinds hfirst hunmarked)
    · exact .inl
        (ofDocument_error_of_not_closesFirst hproper hnodup hkinds hlast hopen hunmarked hfirst)

end Layouts

variable {document : Text} {found : Findings Region} {anchor : Kind → Anchor}
  {diagrams : List Diagram}

theorem holds_of_text_eq (hfound : Region.ofDocument document = .ok found)
    (hkinds : (diagrams.map Diagram.kind).Nodup)
    (hunmarked : ∀ diagram ∈ diagrams, diagram.Unmarked)
    (h : (ofDiagrams document found.records anchor diagrams).text = document) :
    ∀ diagram ∈ diagrams, ∃ region,
      Region.named? found.records diagram.kind.name = some region ∧
        holds region (codeBlock diagram.markup) = true := by
  obtain ⟨layout, hproper, hnodup, rfl, hrecords⟩ := Region.exists_layout hfound
  rw [hrecords] at h ⊢
  obtain ⟨findings, herror⟩ | ⟨found', hfound', hregions⟩ :=
    error_or_exists_regions hproper hnodup hkinds hunmarked
  · rw [h, hfound] at herror
    contradiction
  · rw [h, hfound] at hfound'
    obtain rfl := Except.ok.inj hfound'
    rwa [hrecords] at hregions

theorem text_eq_iff (hfound : Region.ofDocument document = .ok found)
    (hkinds : (diagrams.map Diagram.kind).Nodup)
    (hunmarked : ∀ diagram ∈ diagrams, diagram.Unmarked) :
    (ofDiagrams document found.records anchor diagrams).text = document ↔
      ∀ diagram ∈ diagrams,
        (plan document found.records (anchor diagram.kind) diagram).1 = .unchanged := by
  constructor
  · intro h diagram hmem
    obtain ⟨region, hregion, hholds⟩ := holds_of_text_eq hfound hkinds hunmarked h diagram hmem
    rw [plan_of_holds hregion hholds]
  · intro h
    have hregions : ∀ diagram ∈ diagrams, ∃ region,
        Region.named? found.records diagram.kind.name = some region ∧
          holds region (codeBlock diagram.markup) = true := by
      intro diagram hmem
      obtain ⟨region, hregion, hterminated, hcontent⟩ := plan_unchanged_iff.mp (h diagram hmem)
      exact ⟨region, hregion, by simp [holds, hterminated, hcontent]⟩
    rw [ofDiagrams_of_holds document anchor hregions]

/-! ### Outcomes -/

theorem outcomes_ofDiagrams (document : Text) (regions : List Region) (anchor : Kind → Anchor)
    (diagrams : List Diagram) :
    (ofDiagrams document regions anchor diagrams).outcomes = diagrams.map fun diagram =>
      (diagram.kind, (plan document regions (anchor diagram.kind) diagram).1) := by
  rw [ofDiagrams, List.map_map]
  rfl

theorem outcome?_ofDiagrams (document : Text) (regions : List Region) (anchor : Kind → Anchor)
    (hkinds : (diagrams.map Diagram.kind).Nodup) {diagram : Diagram} (hmem : diagram ∈ diagrams) :
    (ofDiagrams document regions anchor diagrams).outcome? diagram.kind =
      some (plan document regions (anchor diagram.kind) diagram).1 := by
  rw [outcome?, outcomes_ofDiagrams]
  apply lookup_kind_of_mem hmem
  intro other hother hsame
  rw [List.inj_on_of_nodup_map hkinds hother hmem hsame]

theorem exists_changed_iff (document : Text) (regions : List Region) (anchor : Kind → Anchor)
    (diagrams : List Diagram) :
    (∃ pair ∈ (ofDiagrams document regions anchor diagrams).outcomes,
      pair.2 = .inserted ∨ pair.2 = .replaced) ↔
        ¬ ∀ diagram ∈ diagrams,
          (plan document regions (anchor diagram.kind) diagram).1 = .unchanged := by
  have hchanged : ∀ outcome : RegionOutcome,
      outcome = .inserted ∨ outcome = .replaced ↔ ¬ outcome = .unchanged := by
    intro outcome
    cases outcome <;> decide
  simp only [outcomes_ofDiagrams, List.mem_map, hchanged, not_forall]
  constructor
  · rintro ⟨_, ⟨diagram, hmem, rfl⟩, hne⟩
    exact ⟨diagram, hmem, hne⟩
  · rintro ⟨diagram, hmem, hne⟩
    exact ⟨_, ⟨diagram, hmem, rfl⟩, hne⟩

end Update

namespace Engine

theorem report_of_process {engine : Engine} {request : Request} {document : Text}
    {found : Findings Region} {report : Report}
    (hprocess : engine.process request (String.ofList document) = .ok report)
    (hfound : Region.ofDocument document = .ok found) :
    report = engine.report request (String.ofList document) found := by
  rw [process] at hprocess
  split at hprocess
  · contradiction
  rw [String.toList_ofList, hfound] at hprocess
  exact (Except.ok.inj hprocess).symm

/-- The updated text is another one than the document exactly if some diagram's region is new or
gets a new content. So a report says that the document is out of date unless it finds the region of
each diagram unchanged. -/
theorem outOfDate_iff_changed {document : Text} {found : Findings Region}
    (hfound : Region.ofDocument document = .ok found) (anchor : Kind → Anchor)
    (diagrams : List Diagram) (hkinds : (diagrams.map Diagram.kind).Nodup)
    (hunmarked : ∀ diagram ∈ diagrams, diagram.Unmarked) :
    let update := Update.ofDiagrams document found.records anchor diagrams
    (update.text ≠ document ↔
      ∃ pair ∈ update.outcomes, pair.2 = .inserted ∨ pair.2 = .replaced) ∧
    ∀ (engine : Engine) (request : Request) (report : Report),
      engine.process request (String.ofList document) = .ok report → report.stage ≠ .aborted →
      engine.config.anchor = anchor →
      engine.judged request (Model.ofDocument document).1 = diagrams →
        (report.isOutOfDate = false ↔
          ∀ outcome ∈ report.diagrams, outcome.region = some .unchanged) := by
  intro update
  have htext : update.text = document ↔ _ := Update.text_eq_iff hfound hkinds hunmarked
  refine ⟨?_, ?_⟩
  · rw [Update.exists_changed_iff, ne_eq, htext]
  · rintro engine request report hprocess hstage rfl rfl
    obtain rfl := report_of_process hprocess hfound
    obtain ⟨hsource, hupdated, hdiagrams⟩ := report_of_not_aborted hstage
    rw [String.toList_ofList] at hupdated hdiagrams
    have hcurrent : (engine.report request (String.ofList document) found).isOutOfDate = false ↔
        update.text = document := by
      rw [Report.isOutOfDate, hupdated, hsource]
      simp [update, String.ofList_inj]
    have hregions : ∀ diagram ∈ engine.judged request (Model.ofDocument document).1,
        update.outcome? diagram.kind = some (Update.plan document found.records
          (engine.config.anchor diagram.kind) diagram).1 :=
      fun diagram hmem => Update.outcome?_ofDiagrams document found.records _ hkinds hmem
    rw [hcurrent, htext, hdiagrams]
    simp only [List.forall_mem_map, summarize]
    refine forall₂_congr fun diagram hmem => ?_
    rw [← Option.some_inj]
    exact Eq.congr_left (hregions diagram hmem).symm

/-- A journey region that runs to the end of the document, and no other one. -/
theorem outOfDate_iff_changed_open :
    let engine : Engine :=
      ⟨.standard, fun kind _ => some ⟨kind, "flowchart TD\n", 0, .pass⟩, fun _ _ => .accepted⟩
    let request : Request := ⟨none, false⟩
    let document := "<!-- specgram:begin section=\"journey\" -->\nold\n".toList
    let diagrams := engine.judged request (Model.ofDocument document).1
    ∃ found report, Region.ofDocument document = .ok found ∧
      (diagrams.map Diagram.kind).Nodup ∧ (∀ diagram ∈ diagrams, diagram.Unmarked) ∧
      engine.process request (String.ofList document) = .ok report ∧ report.stage ≠ .aborted ∧
      let update := Update.ofDiagrams document found.records engine.config.anchor diagrams
      (update.text ≠ document ↔
        ∃ pair ∈ update.outcomes, pair.2 = .inserted ∨ pair.2 = .replaced) ∧
      (report.isOutOfDate = false ↔
        ∀ outcome ∈ report.diagrams, outcome.region = some .unchanged) := by
  intro engine request document diagrams
  have haccepted : (Region.ofDocument document).toOption.map (fun found => found.records.length) =
      some 1 := by decide
  obtain ⟨found, hfound, -⟩ := Region.exists_found haccepted
  have hkinds : (diagrams.map Diagram.kind).Nodup := by
    rw [map_judged (fun _ _ => rfl)]
    decide
  have hunmarked : ∀ diagram ∈ diagrams, diagram.Unmarked := by
    refine List.forall_mem_map.mpr ?_
    change ∀ diagram ∈ engine.generate request (Model.ofDocument document).1, diagram.Unmarked
    decide
  have hprocess : engine.process request (String.ofList document) =
      .ok (engine.report request (String.ofList document) found) := by
    have hconfig : engine.config.flaw? = none := Config.flaw?_standard
    rw [process, String.toList_ofList, hfound, hconfig]
  have hstage : (engine.report request (String.ofList document) found).stage ≠ .aborted :=
    stage_of_not_strict rfl (String.ofList document) found
  obtain ⟨hchanged, hreport⟩ :=
    outOfDate_iff_changed hfound engine.config.anchor diagrams hkinds hunmarked
  exact ⟨found, _, hfound, hkinds, hunmarked, hprocess, hstage, hchanged,
    hreport engine request _ hprocess hstage rfl rfl⟩

end Engine

end DiagramSync
