import DiagramSync.Proofs.FileTree.Work
import DiagramSync.Run

/-!
What a run changes: nothing before the report is there, and after that the target alone, which
gets the text of the report as a whole.
-/

namespace DiagramSync

/-! ### What is proposed -/

namespace Report

/-- The report is on a text that was read, says how it should be and claims no writing. -/
structure Proposes (report : Report) (source text : String) : Prop where
  source_eq : report.source = source
  updated_eq : report.updated = some text
  stage_eq : report.stage = .validated
  written_eq : report.written = none

theorem isOutOfDate_eq_false_iff {report : Report} {source text : String}
    (h : report.Proposes source text) : report.isOutOfDate = false ↔ text = source := by
  rw [isOutOfDate, h.updated_eq, h.source_eq]
  simp

end Report

namespace Engine

variable {engine : Engine} {tree : FileTree} {request : RunRequest} {report : Report}

theorem exists_proposes_report {request : Request} {source : String} {found : Findings Region}
    (h : (engine.report request source found).stage ≠ .aborted) :
    ∃ text, (engine.report request source found).Proposes source text := by
  simp only [Engine.report] at h ⊢
  split at h
  · exact ⟨_, rfl, rfl, rfl, rfl⟩
  · exact absurd rfl h

theorem exists_report_of_process {request : Request} {source : String}
    (h : engine.process request source = .ok report) :
    ∃ found, report = engine.report request source found := by
  rw [process] at h
  split at h
  · contradiction
  split at h
  · contradiction
  · exact ⟨_, (Except.ok.inj h).symm⟩

theorem exists_proposes_of_propose (h : engine.propose tree request = .ok report) :
    ∃ source text, tree.read request.input = .ok source ∧ report.Proposes source text := by
  obtain ⟨source, hsource, h⟩ := exists_of_bind_eq_ok h
  obtain ⟨proposed, hprocess, h⟩ := exists_of_bind_eq_ok h
  split at h
  · contradiction
  rename_i hstage
  obtain rfl := Except.ok.inj h
  obtain ⟨found, rfl⟩ := exists_report_of_process (eq_ok_of_mapError_eq_ok hprocess)
  obtain ⟨text, htext⟩ := exists_proposes_report hstage
  exact ⟨source, text, eq_ok_of_mapError_eq_ok hsource, htext⟩

theorem on_work (engine : Engine) (disk : Disk) (request : RunRequest) (tree : FileTree) :
    (engine.work disk request).on tree =
      match engine.propose tree request with
      | .ok report => (request.finish disk report).on tree
      | .error failure => (.error failure, tree) := by
  simp only [work, FileWork.on_bind, FileWork.on_get, FileWork.on_lift]
  cases engine.propose tree request <;> rfl

end Engine

/-! ### What is written -/

namespace RunRequest

/-- All ways in which a run ends for which a report is proposed, with the text that should be
written. -/
inductive Ends (request : RunRequest) (report : Report) (text : String) (tree : FileTree) :
    Except RunFailure Report × FileTree → Prop
  | proposed (hdry : request.dryRun = true) : Ends request report text tree (.ok report, tree)
  | upToDate (hdry : request.dryRun = false) (houtput : request.output = none)
      (htext : text = report.source) :
      Ends request report text tree (.ok { report with stage := .committed }, tree)
  | failed (hdry : request.dryRun = false)
      (hwrite : ¬(request.output = none ∧ text = report.source)) (failure : FileFailure) :
      Ends request report text tree (.error (.file failure), tree)
  | written (hdry : request.dryRun = false)
      (hwrite : ¬(request.output = none ∧ text = report.source)) {place : Place}
      (hpath : FileTree.isNoPath request.target = false)
      (htarget : tree.target request.target = .ok place) :
      Ends request report text tree
        (.ok { report with stage := .committed, written := some request.target },
          tree.set place text.toUTF8)

/-- A run ends in one of these ways, whatever the disk has against it. -/
theorem ends_finish {report : Report} {source text : String} (h : report.Proposes source text)
    (request : RunRequest) (disk : Disk) (tree : FileTree) :
    Ends request report text tree ((request.finish disk report).on tree) := by
  have hout : report.isOutOfDate = false ↔ text = report.source := by
    rw [h.source_eq, Report.isOutOfDate_eq_false_iff h]
  have htext : report.updated.getD report.source = text := by rw [h.updated_eq, Option.getD_some]
  rw [finish]
  cases hdry : request.dryRun with
  | true => exact .proposed hdry
  | false =>
    rw [if_neg Bool.false_ne_true, FileWork.on_adapt, commit, htext]
    by_cases hwrite : (report.isOutOfDate || request.output.isSome) = true
    · have hwrite' : ¬(request.output = none ∧ text = report.source) := by
        rintro ⟨houtput, heq⟩
        simp [hout.mpr heq, houtput] at hwrite
      rw [if_pos hwrite, FileWork.on_bind]
      obtain ⟨failure, hfailed⟩ | ⟨place, hpath, htarget, hwritten⟩ :=
        FileWork.write_cases disk request.target text tree
      · rw [hfailed]
        exact .failed hdry hwrite' failure
      · rw [hwritten]
        exact .written hdry hwrite' hpath htarget
    · rw [if_neg hwrite]
      rw [Bool.not_eq_true, Bool.or_eq_false_iff] at hwrite
      have houtput : request.output = none := by simpa using hwrite.2
      exact .upToDate hdry houtput (hout.mp hwrite.1)

/-- What a run has done that is no dry run and has a report. -/
structure Commits (request : RunRequest) (report : Report) (before after : FileTree) : Prop where
  stage_eq : report.stage = .committed
  written_eq_none_iff : report.written = none ↔
    request.output = none ∧ report.updated = some report.source
  of_not_written : report.written = none → after = before
  of_written : ∀ path ∈ report.written, path = request.output.getD request.input ∧
    ∃ place text, before.target path = .ok place ∧ report.updated = some text ∧
      after.lookup path = .file place text.toUTF8 ∧ FileTree.SameExcept place before after
  /-- A file that is not the target is what it was, the document itself too. -/
  input_kept : ∀ place content, before.lookup request.input = .file place content →
    before.target (request.output.getD request.input) ≠ .ok place →
      after.lookup request.input = .file place content

variable {request : RunRequest} {report : Report} {source text : String} {tree : FileTree}

theorem commits_of_upToDate (h : report.Proposes source text) (houtput : request.output = none)
    (htext : text = report.source) :
    request.Commits { report with stage := .committed } tree tree where
  stage_eq := rfl
  written_eq_none_iff := by simp [h.written_eq, houtput, h.updated_eq, htext]
  of_not_written _ := rfl
  of_written path hmem := by simp [h.written_eq] at hmem
  input_kept _ _ hinput _ := hinput

theorem commits_of_written (h : report.Proposes source text)
    (hwrite : ¬(request.output = none ∧ text = report.source)) {place : Place}
    (hpath : FileTree.isNoPath request.target = false)
    (htarget : tree.target request.target = .ok place) :
    request.Commits { report with stage := .committed, written := some request.target } tree
      (tree.set place text.toUTF8) where
  stage_eq := rfl
  written_eq_none_iff := by simpa [h.updated_eq] using hwrite
  of_not_written hnone := by contradiction
  of_written path hmem := by
    obtain rfl := Option.some.inj hmem
    have hplace := (FileTree.leadsTo_of_target htarget).2
    exact ⟨rfl, place, text, htarget, h.updated_eq, FileTree.lookup_set_target hpath htarget _,
      FileTree.sameExcept_set hplace _⟩
  input_kept other content hinput hne := by
    refine FileTree.lookup_set_of_ne (FileTree.leadsTo_of_target htarget).2 ?_ hinput _
    rintro rfl
    exact hne htarget

end RunRequest

namespace Engine

/-- A run that fails and a dry run change nothing. Any other run commits: it leaves the tree as it
is if the document is up to date and no output is asked for, and else the target has the text of
the report as a whole and nothing else is changed. -/
theorem work_changes_target (engine : Engine) (disk : Disk) (request : RunRequest)
    (tree : FileTree) :
    match (engine.work disk request).on tree with
    | (.error _, after) => after = tree
    | (.ok report, after) => tree.read request.input = .ok report.source ∧
        if request.dryRun then after = tree else request.Commits report tree after := by
  rw [on_work]
  cases hpropose : engine.propose tree request with
  | error failure => rfl
  | ok report =>
    obtain ⟨source, text, hread, hproposes⟩ := exists_proposes_of_propose hpropose
    rw [← hproposes.source_eq] at hread
    have hends := request.ends_finish hproposes disk tree
    dsimp only
    generalize (request.finish disk report).on tree = outcome at hends
    cases hends with
    | failed => rfl
    | proposed hdry =>
      rw [hdry]
      exact ⟨hread, rfl⟩
    | upToDate hdry houtput htext =>
      rw [hdry]
      exact ⟨hread, RunRequest.commits_of_upToDate hproposes houtput htext⟩
    | written hdry hwrite hpath htarget =>
      rw [hdry]
      exact ⟨hread, RunRequest.commits_of_written hproposes hwrite hpath htarget⟩

end Engine

end DiagramSync
