import Chartbook.CommandLine.Run
import Chartbook.Proofs.CommandLine.Arguments
import Chartbook.Proofs.Except

/-!
# Runs of the command line

A run prepares its settings, the two replies and the table, each from files of
its own, and gives them to the pipeline.  The first step that fails is the one
reported, and nothing has been written or printed then.
-/

namespace Chartbook.CommandLine

variable {w : Surroundings} {x : Circumstances} {a : Arguments}

/-! ## Files -/

namespace Surroundings

def HasText (w : Surroundings) (path s : String) : Prop :=
  ∃ bytes, w.read path = .ok bytes ∧ String.fromUTF8? bytes = some s

inductive LacksText (w : Surroundings) (path : String) : String → Prop
  | unread {fault : ReadFault} (h : w.read path = .error fault) :
      LacksText w path fault.reason
  | notText {bytes : ByteArray} (h : w.read path = .ok bytes)
      (hbytes : String.fromUTF8? bytes = none) : LacksText w path notText

def HasTable (w : Surroundings) (path : String) (t : Table) : Prop :=
  ∃ bytes, w.read path = .ok bytes ∧ Table.ofBytes bytes = .ok t

inductive LacksTable (w : Surroundings) (path : String) : Error → Prop
  | notOpened {reason : String} (h : w.read path = .error (.notOpened reason)) :
      LacksTable w path (ImportFault.unopened path reason).error
  | notRead {reason : String} (h : w.read path = .error (.notRead reason)) :
      LacksTable w path (.io reason)
  | noTable {bytes : ByteArray} {e : Error} (h : w.read path = .ok bytes)
      (hbytes : Table.ofBytes bytes = .error e) : LacksTable w path e

end Surroundings

theorem readText_eq_ok_iff {path s : String} :
    readText w path = .ok s ↔ w.HasText path s := by
  rw [readText, Surroundings.HasText]
  cases w.read path with
  | error fault => simp
  | ok bytes =>
      simp only [Except.ok.injEq, exists_eq_left']
      cases String.fromUTF8? bytes <;> simp

theorem readText_eq_error_iff {path reason : String} :
    readText w path = .error reason ↔ w.LacksText path reason := by
  constructor
  · intro h
    rw [readText] at h
    split at h
    · rename_i hread
      cases h
      exact .unread hread
    · rename_i hread
      split at h
      · contradiction
      · rename_i hbytes
        cases h
        exact .notText hread hbytes
  · intro h
    cases h with
    | unread hread => rw [readText, hread]
    | notText hread hbytes =>
        rw [readText, hread]
        simp only [hbytes]

theorem loadTable_eq_ok_iff {path : String} {t : Table} :
    loadTable w path = .ok t ↔ w.HasTable path t := by
  rw [loadTable, Surroundings.HasTable]
  cases w.read path with
  | error fault => cases fault <;> simp
  | ok bytes => simp

theorem loadTable_eq_error_iff {path : String} {e : Error} :
    loadTable w path = .error e ↔ w.LacksTable path e := by
  constructor
  · intro h
    rw [loadTable] at h
    split at h
    · rename_i hread
      exact .noTable hread h
    · rename_i hread
      cases h
      exact .notOpened hread
    · rename_i hread
      cases h
      exact .notRead hread
  · intro h
    cases h with
    | notOpened hread => rw [loadTable, hread]
    | notRead hread => rw [loadTable, hread]
    | noTable hread hbytes =>
        rw [loadTable, hread]
        exact hbytes

/-! ## Settings -/

def Surroundings.HasOverlay (w : Surroundings) (a : Arguments) :
    Option String → Prop
  | none => a.config = none
  | some s => ∃ path, a.config = some path ∧ w.HasText path s

/-- The environment over the settings of the file, and the arguments over
both. -/
def Arguments.onto (a : Arguments) (environment : String → Option String)
    (s : Settings) : Settings :=
  { s with
    axis := ((environment "DEFAULT_AGG_MODE").map MonthAxis.ofLabel).getD s.axis
    dropZeroMonths := ((environment "DEFAULT_DROP_ALL_ZERO").map
      Settings.isOn).getD s.dropZeroMonths
    policy := if a.skipFailed then .skipFailed else s.policy }

def Surroundings.HasSettings (w : Surroundings) (a : Arguments)
    (s : Settings) : Prop :=
  ∃ overlay base, w.HasOverlay a overlay ∧
    Settings.ofOverlay overlay = .ok base ∧ s = a.onto w.environment base

inductive Surroundings.LacksSettings (w : Surroundings) (a : Arguments) :
    Error → Prop
  | unreadable {path reason : String} (hpath : a.config = some path)
      (h : w.LacksText path reason) :
      LacksSettings w a (.settings (.unreadable path reason))
  | refused {overlay : Option String} {e : Error}
      (hoverlay : w.HasOverlay a overlay)
      (h : Settings.ofOverlay overlay = .error e) : LacksSettings w a e

theorem loadSettings_of_hasOverlay {overlay : Option String}
    (h : w.HasOverlay a overlay) :
    loadSettings w a =
      (Settings.ofOverlay overlay).map (a.onto w.environment) := by
  have honto (r : Except Error Settings) :
      (r >>= fun base => .ok (if a.skipFailed then
          { base.withEnvironment w.environment with policy := .skipFailed }
        else base.withEnvironment w.environment)) =
          r.map (a.onto w.environment) := by
    cases r with
    | error e => rfl
    | ok base =>
        refine congrArg Except.ok ?_
        rw [Arguments.onto]
        cases a.skipFailed <;> rfl
  rw [loadSettings]
  cases overlay with
  | none =>
      have hconfig : a.config = none := h
      rw [hconfig]
      exact honto (Settings.ofOverlay none)
  | some s =>
      obtain ⟨path, hpath, htext⟩ := h
      rw [hpath]
      simp only [readText_eq_ok_iff.mpr htext]
      exact honto (Settings.ofOverlay (some s))

theorem hasOverlay_or_unreadable (w : Surroundings) (a : Arguments) :
    (∃ overlay, w.HasOverlay a overlay) ∨
      ∃ path reason, a.config = some path ∧ w.LacksText path reason := by
  cases hconfig : a.config with
  | none => exact .inl ⟨none, hconfig⟩
  | some path =>
      cases htext : readText w path with
      | error reason =>
          exact .inr ⟨path, reason, rfl, readText_eq_error_iff.mp htext⟩
      | ok s => exact .inl ⟨some s, path, hconfig, readText_eq_ok_iff.mp htext⟩

theorem loadSettings_of_unreadable {path reason : String}
    (hpath : a.config = some path) (h : w.LacksText path reason) :
    loadSettings w a = .error (.settings (.unreadable path reason)) := by
  rw [loadSettings, hpath]
  simp only [readText_eq_error_iff.mpr h]
  rfl

theorem loadSettings_eq_ok_iff {s : Settings} :
    loadSettings w a = .ok s ↔ w.HasSettings a s := by
  constructor
  · intro h
    rcases hasOverlay_or_unreadable w a with
      ⟨overlay, hoverlay⟩ | ⟨path, reason, hpath, htext⟩
    · rw [loadSettings_of_hasOverlay hoverlay] at h
      obtain ⟨base, hbase, rfl⟩ := map_eq_ok.mp h
      exact ⟨overlay, base, hoverlay, hbase, rfl⟩
    · rw [loadSettings_of_unreadable hpath htext] at h
      contradiction
  · rintro ⟨overlay, base, hoverlay, hbase, rfl⟩
    rw [loadSettings_of_hasOverlay hoverlay, hbase]
    rfl

theorem loadSettings_eq_error_iff {e : Error} :
    loadSettings w a = .error e ↔ w.LacksSettings a e := by
  constructor
  · intro h
    rcases hasOverlay_or_unreadable w a with
      ⟨overlay, hoverlay⟩ | ⟨path, reason, hpath, htext⟩
    · rw [loadSettings_of_hasOverlay hoverlay] at h
      cases hbase : Settings.ofOverlay overlay with
      | error e' =>
          rw [hbase] at h
          cases h
          exact .refused hoverlay hbase
      | ok base =>
          rw [hbase] at h
          cases h
    · rw [loadSettings_of_unreadable hpath htext] at h
      cases h
      exact .unreadable hpath htext
  · intro h
    cases h with
    | unreadable hpath htext => exact loadSettings_of_unreadable hpath htext
    | refused hoverlay hbase =>
        rw [loadSettings_of_hasOverlay hoverlay, hbase]
        rfl

/-! ## Steps -/

/-- What a run has prepared before the pipeline starts. -/
structure Prepared where
  settings : Settings
  columns : String
  plan : String
  table : Table

structure IsPrepared (w : Surroundings) (a : Arguments) (p : Prepared) :
    Prop where
  settings : w.HasSettings a p.settings
  columns : w.HasText a.classification p.columns
  plan : w.HasText a.plan p.plan
  table : w.HasTable a.input p.table

/-- The pipeline on a new store, with a classifier that has two replies. -/
def Prepared.pipeline (p : Prepared) (a : Arguments) (x : Circumstances) :
    Except Error PipelineResult :=
  (Store.runPipeline {} p.settings p.table (.fixed (.ok p.columns) (.ok p.plan))
    ⟨a.axisLabel, if a.keepZeroMonths then some false else none⟩ x).result

inductive Step where
  | settings
  | classification
  | plan
  | input
  | pipeline
  | output
  deriving DecidableEq, Repr

def Step.place : Step → Nat
  | settings => 0
  | classification => 1
  | plan => 2
  | input => 3
  | pipeline => 4
  | output => 5

/-- What is wrong at a step, whatever is wrong at others.  The pipeline fails
only on what has been prepared. -/
inductive FailsAt (w : Surroundings) (x : Circumstances) (a : Arguments) :
    Step → Failure → Prop
  | settings {e : Error} (h : w.LacksSettings a e) :
      FailsAt w x a .settings (.settings e)
  | classification {reason : String} (h : w.LacksText a.classification reason) :
      FailsAt w x a .classification (.reading a.classification reason)
  | plan {reason : String} (h : w.LacksText a.plan reason) :
      FailsAt w x a .plan (.reading a.plan reason)
  | input {e : Error} (h : w.LacksTable a.input e) :
      FailsAt w x a .input (.loading a.input e)
  | pipeline {p : Prepared} {e : Error} (hprepared : IsPrepared w a p)
      (h : p.pipeline a x = .error e) : FailsAt w x a .pipeline (.pipeline e)
  | output {path reason : String} (hpath : a.output = some path)
      (h : w.writeFault path = some reason) :
      FailsAt w x a .output (.writing path reason)

def Step.context (a : Arguments) : Step → String
  | settings => "Failed to load settings"
  | classification => s!"Failed to read {a.classification}"
  | plan => s!"Failed to read {a.plan}"
  | input => s!"Failed to load {a.input}"
  | pipeline => "Dashboard pipeline failed"
  | output => (a.output.map fun path => s!"Failed to write {path}").getD ""

theorem FailsAt.report_head {step : Step} {f : Failure}
    (h : FailsAt w x a step f) :
    f.report.head? = some (.text (step.context a)) := by
  cases h with
  | settings | classification | plan | input | pipeline => rfl
  | output hpath =>
      rw [Step.context, hpath]
      rfl

def FailsFirstAt (w : Surroundings) (x : Circumstances) (a : Arguments)
    (step : Step) (f : Failure) : Prop :=
  FailsAt w x a step f ∧
    ∀ earlier f', earlier.place < step.place → ¬FailsAt w x a earlier f'

/-- A run that leaves a result, in the output file or printed. -/
inductive Finishes (w : Surroundings) (x : Circumstances) (a : Arguments) :
    Outcome → Prop
  | printed {p : Prepared} {r : PipelineResult} (hprepared : IsPrepared w a p)
      (hresult : p.pipeline a x = .ok r) (hpath : a.output = none) :
      Finishes w x a { stdout := r.toJson.renderIndented.push '\n' }
  | written {p : Prepared} {r : PipelineResult} {path : String}
      (hprepared : IsPrepared w a p) (hresult : p.pipeline a x = .ok r)
      (hpath : a.output = some path) (hwrite : w.writeFault path = none) :
      Finishes w x a { written := some (path, r.toJson.renderIndented) }

section Preparing

variable {p : Prepared}

theorem exists_hasSettings (h : ∀ f, ¬FailsAt w x a .settings f) :
    ∃ s, w.HasSettings a s := by
  cases hsettings : loadSettings w a with
  | error e =>
      exact absurd (.settings (loadSettings_eq_error_iff.mp hsettings)) (h _)
  | ok s => exact ⟨s, loadSettings_eq_ok_iff.mp hsettings⟩

theorem exists_hasText {path : String}
    (h : ∀ reason, ¬w.LacksText path reason) : ∃ s, w.HasText path s := by
  cases htext : readText w path with
  | error reason => exact absurd (readText_eq_error_iff.mp htext) (h reason)
  | ok s => exact ⟨s, readText_eq_ok_iff.mp htext⟩

private theorem exists_hasTable {path : String}
    (h : ∀ e, ¬w.LacksTable path e) :
    ∃ t, w.HasTable path t := by
  cases htable : loadTable w path with
  | error e => exact absurd (loadTable_eq_error_iff.mp htable) (h e)
  | ok t => exact ⟨t, loadTable_eq_ok_iff.mp htable⟩

theorem exists_columns (h : ∀ f, ¬FailsAt w x a .classification f) :
    ∃ s, w.HasText a.classification s :=
  exists_hasText fun _ hlacks => h _ (.classification hlacks)

theorem exists_plan (h : ∀ f, ¬FailsAt w x a .plan f) :
    ∃ s, w.HasText a.plan s :=
  exists_hasText fun _ hlacks => h _ (.plan hlacks)

theorem exists_isPrepared
    (h : ∀ step f, step.place < Step.pipeline.place → ¬FailsAt w x a step f) :
    ∃ p, IsPrepared w a p := by
  obtain ⟨settings, hsettings⟩ :=
    exists_hasSettings fun f => h .settings f (by decide)
  obtain ⟨columns, hcolumns⟩ :=
    exists_columns fun f => h .classification f (by decide)
  obtain ⟨plan, hplan⟩ := exists_plan fun f => h .plan f (by decide)
  obtain ⟨table, htable⟩ := exists_hasTable fun e hlacks =>
    h .input _ (by decide) (.input hlacks)
  exact ⟨⟨settings, columns, plan, table⟩, hsettings, hcolumns, hplan, htable⟩

theorem compute_of_isPrepared (h : IsPrepared w a p) :
    compute w x a = (p.pipeline a x).mapError .pipeline := by
  rw [compute, loadSettings_eq_ok_iff.mpr h.settings,
    readText_eq_ok_iff.mpr h.columns, readText_eq_ok_iff.mpr h.plan,
    loadTable_eq_ok_iff.mpr h.table]
  rfl

end Preparing

/-! ## Whole runs -/

private theorem run_of_compute_eq_error {f : Failure}
    (h : compute w x a = .error f) :
    run w x a = { failure := some f } := by
  rw [run, h]

theorem run_of_failsFirstAt {step : Step} {f : Failure}
    (h : FailsFirstAt w x a step f) : run w x a = { failure := some f } := by
  obtain ⟨hfails, hfirst⟩ := h
  cases hfails with
  | settings hlacks =>
      refine run_of_compute_eq_error ?_
      rw [compute, loadSettings_eq_error_iff.mpr hlacks]
      rfl
  | classification hlacks =>
      obtain ⟨s, hs⟩ := exists_hasSettings fun f =>
        hfirst .settings f (by decide)
      refine run_of_compute_eq_error ?_
      rw [compute, loadSettings_eq_ok_iff.mpr hs,
        readText_eq_error_iff.mpr hlacks]
      rfl
  | plan hlacks =>
      obtain ⟨s, hs⟩ := exists_hasSettings fun f =>
        hfirst .settings f (by decide)
      obtain ⟨columns, hcolumns⟩ := exists_columns fun f =>
        hfirst .classification f (by decide)
      refine run_of_compute_eq_error ?_
      rw [compute, loadSettings_eq_ok_iff.mpr hs,
        readText_eq_ok_iff.mpr hcolumns, readText_eq_error_iff.mpr hlacks]
      rfl
  | input hlacks =>
      obtain ⟨s, hs⟩ := exists_hasSettings fun f =>
        hfirst .settings f (by decide)
      obtain ⟨columns, hcolumns⟩ := exists_columns fun f =>
        hfirst .classification f (by decide)
      obtain ⟨plan, hplan⟩ := exists_plan fun f => hfirst .plan f (by decide)
      refine run_of_compute_eq_error ?_
      rw [compute, loadSettings_eq_ok_iff.mpr hs,
        readText_eq_ok_iff.mpr hcolumns, readText_eq_ok_iff.mpr hplan,
        loadTable_eq_error_iff.mpr hlacks]
      rfl
  | pipeline hprepared hpipeline =>
      refine run_of_compute_eq_error ?_
      rw [compute_of_isPrepared hprepared, hpipeline]
      rfl
  | output hpath hwrite =>
      obtain ⟨p, hp⟩ := exists_isPrepared fun step f hlt =>
        hfirst step f (Nat.lt_succ_of_lt hlt)
      cases hpipeline : p.pipeline a x with
      | error e =>
          exact absurd (.pipeline hp hpipeline) (hfirst _ _ (by decide))
      | ok r =>
          rw [run, compute_of_isPrepared hp, hpipeline]
          simp only [Except.mapError, hpath, hwrite]

theorem run_of_finishes {o : Outcome} (h : Finishes w x a o) :
    run w x a = o := by
  cases h with
  | printed hprepared hresult hpath =>
      rw [run, compute_of_isPrepared hprepared, hresult]
      simp only [Except.mapError, hpath]
  | written hprepared hresult hpath hwrite =>
      rw [run, compute_of_isPrepared hprepared, hresult]
      simp only [Except.mapError, hpath, hwrite]

theorem Finishes.exitCode_eq {o : Outcome} (h : Finishes w x a o) :
    o.exitCode = 0 := by
  cases h <;> rfl

theorem exists_failsFirstAt {step : Step} {f : Failure}
    (h : FailsAt w x a step f) : ∃ step f, FailsFirstAt w x a step f := by
  induction hn : step.place using Nat.strong_induction_on
    generalizing step f with
  | _ n ih =>
      by_cases hfirst : ∀ earlier f', earlier.place < step.place →
          ¬FailsAt w x a earlier f'
      · exact ⟨step, f, h, hfirst⟩
      · push Not at hfirst
        obtain ⟨earlier, f', hlt, hearlier⟩ := hfirst
        exact ih earlier.place (hn ▸ hlt) hearlier rfl

theorem exists_finishes (h : ∀ step f, ¬FailsAt w x a step f) :
    ∃ o, Finishes w x a o := by
  obtain ⟨p, hp⟩ := exists_isPrepared fun step f _ => h step f
  cases hpipeline : p.pipeline a x with
  | error e => exact absurd (.pipeline hp hpipeline) (h _ _)
  | ok r =>
      cases hpath : a.output with
      | none => exact ⟨_, .printed hp hpipeline hpath⟩
      | some path =>
          cases hwrite : w.writeFault path with
          | none => exact ⟨_, .written hp hpipeline hpath hwrite⟩
          | some reason => exact absurd (.output hpath hwrite) (h _ _)

theorem run_eq_iff {o : Outcome} :
    run w x a = o ↔ Finishes w x a o ∨
      ∃ step f, FailsFirstAt w x a step f ∧ o = { failure := some f } := by
  constructor
  · rintro rfl
    by_cases hfails : ∃ step f, FailsAt w x a step f
    · obtain ⟨step, f, hfails⟩ := hfails
      obtain ⟨step, f, hfirst⟩ := exists_failsFirstAt hfails
      exact .inr ⟨step, f, hfirst, run_of_failsFirstAt hfirst⟩
    · push Not at hfails
      obtain ⟨o, ho⟩ := exists_finishes hfails
      exact .inl ((run_of_finishes ho).symm ▸ ho)
  · rintro (hfinishes | ⟨step, f, hfirst, rfl⟩)
    · exact run_of_finishes hfinishes
    · exact run_of_failsFirstAt hfirst

private theorem resolve_onto (a : Arguments)
    (environment : String → Option String) (base : Settings) :
    (optionsOf a).resolve (a.onto environment base) =
      { axis := ((a.axisLabel.or (environment "DEFAULT_AGG_MODE")).map
          MonthAxis.ofLabel).getD base.axis
        dropZero := !a.keepZeroMonths &&
          ((environment "DEFAULT_DROP_ALL_ZERO").map Settings.isOn).getD
            base.dropZeroMonths
        topN := base.topN } := by
  simp only [optionsOf, Options.resolve, Arguments.onto]
  cases a.axisLabel <;> cases a.keepZeroMonths <;> rfl

/--
A command line that is no request for help runs the pipeline on what its files
hold, and nothing else.  It ends in one way: the result stands in the output
file or is printed, or the first failing step is reported.  It ends well exactly
if no step fails, and otherwise nothing is printed and nothing is written.
-/
theorem run_of_commandLine (args : List String) (a : Arguments)
    (w : Surroundings) (x : Circumstances) :
    (Request.ofArguments args = .run a ↔ IsCommandLine args a) ∧
    (∀ o, run w x a = o ↔ Finishes w x a o ∨
      ∃ step f, FailsFirstAt w x a step f ∧ o = { failure := some f }) ∧
    (∀ step f, FailsAt w x a step f →
      f.report.head? = some (.text (step.context a))) ∧
    ((run w x a).exitCode = 0 ↔ ∀ step f, ¬FailsAt w x a step f) ∧
    ((run w x a).exitCode ≠ 0 → (run w x a).exitCode = 1 ∧
      (run w x a).stdout = "" ∧ (run w x a).written = none) ∧
    ∀ p, IsPrepared w a p →
      ∃ overlay base, w.HasOverlay a overlay ∧
        Settings.ofOverlay overlay = .ok base ∧
        p.settings = a.onto w.environment base ∧
        (optionsOf a).resolve p.settings =
          { axis := ((a.axisLabel.or (w.environment "DEFAULT_AGG_MODE")).map
              MonthAxis.ofLabel).getD base.axis
            dropZero := !a.keepZeroMonths &&
              ((w.environment "DEFAULT_DROP_ALL_ZERO").map Settings.isOn).getD
                base.dropZeroMonths
            topN := base.topN } := by
  refine ⟨ofArguments_eq_run_iff, fun o => run_eq_iff,
    fun step f => FailsAt.report_head,
    ⟨fun h step f hfails => ?_, fun h => ?_⟩, fun hne => ?_, fun p hp => ?_⟩
  · obtain ⟨step, f, hfirst⟩ := exists_failsFirstAt hfails
    rw [run_of_failsFirstAt hfirst] at h
    cases h
  · obtain ⟨o, ho⟩ := exists_finishes h
    rw [run_of_finishes ho, ho.exitCode_eq]
  · rcases run_eq_iff.mp rfl with hfinishes | ⟨step, f, -, heq⟩
    · exact absurd hfinishes.exitCode_eq hne
    · rw [heq]
      exact ⟨rfl, rfl, rfl⟩
  · obtain ⟨overlay, base, hoverlay, hbase, hsettings⟩ := hp.settings
    exact ⟨overlay, base, hoverlay, hbase, hsettings,
      hsettings ▸ resolve_onto a w.environment base⟩

theorem run_of_commandLine_oneCell :
    let args := ["--skip-failed", "--plan=p.json", "--input", "a.csv",
      "--output", "out.json", "--classification", "c.json"]
    let a : Arguments := {
      input := "a.csv", classification := "c.json", plan := "p.json"
      skipFailed := true, output := some "out.json" }
    let files : List (String × String) := [("a.csv", "a\nx\n"),
      ("c.json", "\x7b\"columns\":[]\x7d"),
      ("p.json", "\x7b\"kpis\":[],\"charts\":[],\"insights\":[]\x7d")]
    let w : Surroundings := {
      read := fun path =>
        match files.lookup path with
        | some s => .ok s.toUTF8
        | none => .error (.notOpened "No such file")
      writeFault := fun _ => none
      environment := fun _ => none }
    let x : Circumstances := ⟨[1], [2], fun _ => "", ""⟩
    let misnamed := { a with config := some "s.json", plan := "q.json" }
    IsCommandLine args a ∧ (∀ step f, ¬FailsAt w x a step f) ∧
      Finishes w x a (run w x a) ∧
      (run w x a).written.map Prod.fst = some "out.json" ∧
      ∃ f, FailsFirstAt w x misnamed .settings f ∧
        ∃ f, FailsAt w x misnamed .plan f := by
  intro args a files w x misnamed
  obtain ⟨hargs, hrun, -, hexit, -⟩ := run_of_commandLine args a w x
  have hnone : ∀ step f, ¬FailsAt w x a step f :=
    hexit.mp (by decide +kernel)
  have hfinishes : Finishes w x a (run w x a) := by
    rcases (hrun _).mp rfl with hfinishes | ⟨step, f, hfirst, -⟩
    · exact hfinishes
    · exact absurd hfirst.1 (hnone step f)
  have hplan : FailsAt w x misnamed .plan _ := .plan (.unread rfl)
  have hsettings : FailsAt w x misnamed .settings _ :=
    .settings (.unreadable rfl (.unread rfl))
  exact ⟨hargs.mp (by decide +kernel), hnone, hfinishes, by decide +kernel,
    _, ⟨hsettings, fun _ _ hlt => absurd hlt (Nat.not_lt_zero _)⟩, _, hplan⟩

end Chartbook.CommandLine
