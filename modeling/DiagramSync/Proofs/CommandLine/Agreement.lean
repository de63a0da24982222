import DiagramSync.CommandLine.Program
import DiagramSync.Proofs.Run.Frame

/-!
A check stands for the run that it replaces: both judge the same proposal, the check by its exit
status and the run by what it writes.
-/

namespace DiagramSync

/-! ### Trees before and behind a run -/

namespace FileTree

/-- The document is another text in the second tree. -/
def Revises (path : String) (before after : FileTree) : Prop :=
  ∃ source text, before.read path = .ok source ∧ after.read path = .ok text ∧ text ≠ source

/-- Every place holds the file that it held before, or none as before. -/
def KeepsFiles (before after : FileTree) : Prop :=
  ∀ place, after.files.lookup place = before.files.lookup place

theorem KeepsFiles.refl (tree : FileTree) : KeepsFiles tree tree :=
  fun _ => rfl

theorem not_revises_self (path : String) (tree : FileTree) : ¬Revises path tree tree := by
  rintro ⟨source, text, hsource, htext, hne⟩
  exact hne (Except.ok.inj (htext.symm.trans hsource))

theorem not_keepsFiles_set {tree : FileTree} {path source text : String} {place : Place}
    (hread : tree.read path = .ok source) (htarget : tree.target path = .ok place)
    (hne : text ≠ source) :
    ¬KeepsFiles tree (tree.set place text.toUTF8) := by
  intro hkeeps
  obtain ⟨other, content, hlookup, hcontent⟩ := read_eq_ok_iff.mp hread
  obtain rfl := eq_of_lookup_of_target hlookup htarget
  have hsame := hkeeps other
  rw [lookup_files_set_self, (lookup_eq_file_iff.mp hlookup).2.2] at hsame
  rw [← Option.some.inj hsame, fromUTF8?_toUTF8] at hcontent
  exact hne (Option.some.inj hcontent)

end FileTree

/-! ### Work -/

namespace Arguments

variable {around : Surroundings} {arguments : Arguments} {tree : FileTree} {configHome : String}

/-- The same arguments without a check, a dry run and an output. -/
def plain (arguments : Arguments) : Arguments :=
  { arguments with dryRun := false, check := false, output := none }

/-- The report of a run before anything is written. -/
def propose (arguments : Arguments) (around : Surroundings) (tree : FileTree)
    (configHome : String) : Except RunFailure Report := do
  let config ← (Config.load around.settings? tree configHome arguments.config).mapError
    RunFailure.ofLoad
  (Engine.standard config (around.consult tree)).propose tree arguments.runRequest

/-- What is written, if anything, has no say in what is proposed. -/
theorem propose_plain (arguments : Arguments) (around : Surroundings) (tree : FileTree)
    (configHome : String) :
    arguments.plain.propose around tree configHome = arguments.propose around tree configHome :=
  rfl

theorem exists_proposes_of_propose {report : Report}
    (h : arguments.propose around tree configHome = .ok report) :
    ∃ source text, tree.read arguments.input = .ok source ∧ report.Proposes source text := by
  obtain ⟨config, -, h⟩ := exists_of_bind_eq_ok h
  exact Engine.exists_proposes_of_propose h

theorem on_work (arguments : Arguments) (around : Surroundings) (tree : FileTree)
    (configHome : String) :
    (arguments.work around configHome).on tree =
      match arguments.propose around tree configHome with
      | .ok report => (arguments.runRequest.finish around.disk report).on tree
      | .error failure => (.error failure, tree) := by
  simp only [work, propose, FileWork.on_bind, FileWork.on_get, FileWork.on_lift, Engine.on_work]
  cases (Config.load around.settings? tree configHome arguments.config).mapError
    RunFailure.ofLoad <;> rfl

theorem ends_work {report : Report} {source text : String}
    (h : arguments.propose around tree configHome = .ok report)
    (hproposes : report.Proposes source text) :
    arguments.runRequest.Ends report text tree ((arguments.work around configHome).on tree) := by
  rw [on_work, h]
  exact arguments.runRequest.ends_finish hproposes around.disk tree

end Arguments

/-! ### Outcomes -/

namespace Program

variable {around : Surroundings} {arguments : Arguments} {tree after : FileTree}
  {configHome : String} {report : Report} {source text : String} {failure : RunFailure}

theorem perform_of_error
    (h : (arguments.work around configHome).on tree = (.error failure, after)) :
    (perform around arguments tree configHome).exitStatus = 1 ∧
      (perform around arguments tree configHome).tree = after := by
  rw [perform, h]
  exact ⟨rfl, rfl⟩

theorem perform_of_ok (h : (arguments.work around configHome).on tree = (.ok report, after)) :
    (perform around arguments tree configHome).exitStatus =
        (if arguments.check && report.isOutOfDate then 1 else report.exitStatus) ∧
      (perform around arguments tree configHome).tree = after := by
  rw [perform, h]
  exact ⟨rfl, rfl⟩

theorem perform_of_failed (h : arguments.propose around tree configHome = .error failure) :
    (perform around arguments tree configHome).exitStatus = 1 ∧
      (perform around arguments tree configHome).tree = tree := by
  have hwork : (arguments.work around configHome).on tree = (.error failure, tree) := by
    rw [Arguments.on_work, h]
  exact perform_of_error hwork

/-- A check tells by its exit status if the document should be another one, and writes nothing. -/
theorem perform_check (hcheck : arguments.check = true)
    (h : arguments.propose around tree configHome = .ok report)
    (hproposes : report.Proposes source text) :
    (perform around arguments tree configHome).exitStatus = (if text = source then 0 else 1) ∧
      (perform around arguments tree configHome).tree = tree := by
  have hdry : arguments.runRequest.dryRun = true := by simp [Arguments.runRequest, hcheck]
  have hends := Arguments.ends_work h hproposes
  generalize hwork : (arguments.work around configHome).on tree = outcome at hends
  cases hends with
  | proposed =>
    obtain ⟨hstatus, htree⟩ := perform_of_ok hwork
    refine ⟨hstatus.trans ?_, htree⟩
    have hout := Report.isOutOfDate_eq_false_iff hproposes
    by_cases htext : text = source
    · simp [hcheck, hout.mpr htext, htext, Report.exitStatus, hproposes.stage_eq]
    · simp [hcheck, (Bool.not_eq_false _).mp (mt hout.mp htext), htext]
  | upToDate hwrites | failed hwrites | written hwrites => simp [hdry] at hwrites

theorem check_eq_false_of_dryRun_eq_false (h : arguments.runRequest.dryRun = false) :
    arguments.check = false :=
  (Bool.or_eq_false_iff.mp h).2

/-- Without an output a run writes over a document that should be another one. -/
theorem perform_plain (h : arguments.propose around tree configHome = .ok report)
    (hproposes : report.Proposes source text) :
    let outcome := perform around arguments.plain tree configHome
    (text = source ∧ outcome.exitStatus = 0 ∧ outcome.tree = tree) ∨
      (text ≠ source ∧ outcome.exitStatus = 1 ∧ outcome.tree = tree) ∨
      text ≠ source ∧ outcome.exitStatus = 0 ∧ ∃ place, FileTree.isNoPath arguments.input = false ∧
        tree.target arguments.input = .ok place ∧ outcome.tree = tree.set place text.toUTF8 := by
  have hends := Arguments.ends_work
    ((arguments.propose_plain around tree configHome).trans h) hproposes
  generalize hwork : (arguments.plain.work around configHome).on tree = outcome at hends
  rw [← hproposes.source_eq]
  cases hends with
  | proposed hdry => contradiction
  | upToDate _ _ htext => exact .inl ⟨htext, perform_of_ok hwork⟩
  | failed _ hwrite => exact .inr (.inl ⟨fun htext => hwrite ⟨rfl, htext⟩, perform_of_error hwork⟩)
  | written _ hwrite hpath htarget =>
    obtain ⟨hstatus, htree⟩ := perform_of_ok hwork
    exact .inr (.inr ⟨fun htext => hwrite ⟨rfl, htext⟩, hstatus, _, hpath, htarget, htree⟩)

/-- A program that reports a failure has changed nothing. -/
theorem tree_perform_of_exitStatus_eq_one
    (hstatus : (perform around arguments tree configHome).exitStatus = 1) :
    (perform around arguments tree configHome).tree = tree := by
  cases h : arguments.propose around tree configHome with
  | error failure => exact (perform_of_failed h).2
  | ok report =>
    obtain ⟨source, text, -, hproposes⟩ := Arguments.exists_proposes_of_propose h
    have hends := Arguments.ends_work h hproposes
    generalize hwork : (arguments.work around configHome).on tree = outcome at hends
    cases hends with
    | proposed | upToDate => exact (perform_of_ok hwork).2
    | failed => exact (perform_of_error hwork).2
    | written hdry =>
      rw [(perform_of_ok hwork).1, check_eq_false_of_dryRun_eq_false hdry] at hstatus
      contradiction

theorem runIn_of_parse {texts : List String} (h : around.parse texts = .ok arguments)
    (tree : FileTree) (configHome : String) :
    runIn around texts tree configHome = perform around arguments tree configHome := by
  rw [runIn, h]

theorem tree_runIn_of_exitStatus_eq_one {texts : List String}
    (hstatus : (runIn around texts tree configHome).exitStatus = 1) :
    (runIn around texts tree configHome).tree = tree := by
  rw [runIn] at hstatus ⊢
  split at hstatus
  · exact tree_perform_of_exitStatus_eq_one hstatus
  all_goals rfl

/-- A check agrees with the run that it stands for, whatever reads the arguments and the settings
and whatever the validator commands and the disk do. It passes if and only if the run would succeed
and leave every file as it is, and fails if and only if the run would fail or write a document
that is another one than before. It writes nothing, and whatever the program is asked for, nothing
is changed if it fails. -/
theorem runIn_check_agrees (around : Surroundings) (tree : FileTree) (configHome : String)
    {checking writing : List String} {arguments : Arguments}
    (hchecking : around.parse checking = .ok arguments) (hcheck : arguments.check = true)
    (hwriting : around.parse writing = .ok arguments.plain) :
    let checked := runIn around checking tree configHome
    let written := runIn around writing tree configHome
    (checked.exitStatus = 0 ↔ written.exitStatus = 0 ∧ tree.KeepsFiles written.tree) ∧
      (checked.exitStatus = 1 ↔ written.exitStatus = 1 ∨
        written.exitStatus = 0 ∧ FileTree.Revises arguments.input tree written.tree) ∧
      checked.tree = tree ∧
      ∀ texts, (runIn around texts tree configHome).exitStatus = 1 →
        (runIn around texts tree configHome).tree = tree := by
  intro checked written
  have hchecked : checked = perform around arguments tree configHome :=
    runIn_of_parse hchecking tree configHome
  have hwritten : written = perform around arguments.plain tree configHome :=
    runIn_of_parse hwriting tree configHome
  rw [hchecked, hwritten, ← and_assoc, ← and_assoc]
  refine ⟨?_, fun _ => tree_runIn_of_exitStatus_eq_one⟩
  rw [and_assoc]
  cases h : arguments.propose around tree configHome with
  | error failure =>
    obtain ⟨hstatus, htree⟩ := perform_of_failed h
    obtain ⟨hstatus', -⟩ := perform_of_failed
      ((arguments.propose_plain around tree configHome).trans h)
    simp [hstatus, htree, hstatus']
  | ok report =>
    obtain ⟨source, text, hread, hproposes⟩ := Arguments.exists_proposes_of_propose h
    obtain ⟨hstatus, htree⟩ := perform_check hcheck h hproposes
    obtain ⟨heq, hstatus', htree'⟩ | ⟨hne, hstatus', -⟩ |
      ⟨hne, hstatus', place, hpath, htarget, htree'⟩ := perform_plain h hproposes
    · simp [hstatus, htree, hstatus', htree', heq, FileTree.KeepsFiles.refl,
        FileTree.not_revises_self]
    · simp [hstatus, htree, hstatus', hne]
    · have hkeeps := FileTree.not_keepsFiles_set hread htarget hne
      have hrevises : FileTree.Revises arguments.input tree (tree.set place text.toUTF8) :=
        ⟨source, text, hread, FileTree.read_set_target hpath htarget text, hne⟩
      rw [← htree'] at hkeeps hrevises
      simp [hstatus, htree, hstatus', hne, hkeeps, hrevises]

/-- The check fails for a document that the run would put a diagram into. The output that is asked
for plays no part in it. -/
theorem runIn_check_agrees_stale :
    let tree : FileTree := ⟨[(["spec.md"], "# Key Entities\n- **A**: x\n".toUTF8)], [], []⟩
    let checking := ["--check", "--output", "other.md", "spec.md"]
    let arguments : Arguments :=
      ⟨"spec.md", none, false, false, true, some "other.md", none, "info"⟩
    let checked := runIn .standard checking tree "/home"
    let written := runIn .standard ["spec.md"] tree "/home"
    Surroundings.standard.parse checking = .ok arguments ∧ arguments.check = true ∧
      Surroundings.standard.parse ["spec.md"] = .ok arguments.plain ∧ checked.exitStatus = 1 ∧
      written.exitStatus = 0 ∧ FileTree.Revises "spec.md" tree written.tree ∧ checked.tree = tree := by
  intro tree checking arguments checked written
  have hchecking : Surroundings.standard.parse checking = .ok arguments := rfl
  have hwriting : Surroundings.standard.parse ["spec.md"] = .ok arguments.plain := rfl
  have hchecked : checked.exitStatus = 1 := by decide +kernel
  have hwritten : written.exitStatus = 0 := by decide +kernel
  obtain ⟨-, hfails, hkept, -⟩ :=
    runIn_check_agrees .standard tree "/home" hchecking rfl hwriting
  have hrevises : FileTree.Revises "spec.md" tree written.tree := by
    obtain hfailed | ⟨-, hrevises⟩ := hfails.mp hchecked
    · rw [hwritten] at hfailed
      contradiction
    · exact hrevises
  exact ⟨hchecking, rfl, hwriting, hchecked, hwritten, hrevises, hkept⟩

end Program
end DiagramSync
