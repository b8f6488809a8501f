import OpHeaders.CommandLine.Run
import OpHeaders.Proofs.Compile.Isolation

/-! The command that generates headers. It compiles with the configuration of a file, or the default,
as far as the options do not say otherwise, and it changes no file besides. What it prints
and how it ends is an account of the outcomes in the order of the run. -/
namespace OpHeaders.CommandLine

open Files (FilePath Tree)
open Compile (Outcome Report)

/-! ### The configuration -/

/-- The configuration in a file of a tree, or the default without one. -/
def configIn (t : Tree) : Option FilePath → Except ConfigError Config
  | none => .ok {}
  | some path =>
    match t.read path with
    | .error _ => .error (.unreadable path)
    | .ok text => (Config.ofText? text).elim (.error (.invalidFile path)) .ok

/-- Loading a configuration leaves the tree as it is. -/
theorem loadConfig_eq (t : Tree) (config : Option FilePath) :
    loadConfig Tree.access config t = (configIn t config, t) := by
  cases config with
  | none => rfl
  | some path =>
    simp only [loadConfig, Config.ofFile, Tree.access, bind, StateT.bind, configIn]
    cases t.read path with
    | error f => rfl
    | ok text =>
      dsimp only
      cases Config.ofText? text with
      | none => rfl
      | some c => rfl

/-! ### The account of a report -/

/-- The rows of cells for the outcomes, and the names of those that failed, whatever the YAML library
says against a schema that it refuses. -/
inductive Accounts (refusal : String → String) : Report → List (List String) → List String → Prop where
  | nil : Accounts refusal [] [] []
  | made {o : Outcome} {g : Compile.Generated} {report : Report} {rows : List (List String)}
      {failures : List String} :
    o.result = .ok g → Accounts refusal report rows failures →
    Accounts refusal (o :: report) ([o.group, o.base, toString g.operators, "ok"] :: rows) failures
  | failed {o : Outcome} {e : Compile.JobError} {report : Report} {rows : List (List String)}
      {failures : List String} :
    o.result = .error e → Accounts refusal report rows failures →
    Accounts refusal (o :: report) ([o.group, o.base, "-", "failed: " ++ e.cause refusal] :: rows)
      ((o.group ++ "/" ++ o.base) :: failures)

def page (rows : List (List String)) : String :=
  "\n" ++ Table.render ["Group", "Schema", "Ops", "Status"] rows ++ "\n"

/-- The ends of a run with a report. The table is printed in any case. -/
inductive Concludes (refusal : String → String) (report : Report) : Ending → Prop where
  | success {rows : List (List String)} :
    Accounts refusal report rows [] → Concludes refusal report { code := 0, output := page rows, message := none }
  | failure {rows : List (List String)} {failures : List String} :
    Accounts refusal report rows failures → failures ≠ [] →
    Concludes refusal report {
      code := 1
      output := page rows
      message := some (toString failures.length ++ " schema file(s) failed: " ++ ", ".intercalate failures) }

variable {refusal : String → String} {report : Report} {rows : List (List String)}
  {failures : List String} {ending : Ending}

theorem accounts (refusal : String → String) (report : Report) :
    Accounts refusal report ((report.map (Outcome.row refusal)).map Compile.SummaryRow.cells) report.failed := by
  induction report with
  | nil => exact .nil
  | cons o report ih =>
    cases h : o.result with
    | ok g =>
      have hok : o.isOk := Outcome.isOk_iff.mpr ⟨g, h⟩
      have hrow : (o.row refusal).cells = [o.group, o.base, toString g.operators, "ok"] := by
        rw [Outcome.row, h]
        rfl
      rw [List.map_cons, List.map_cons, hrow, Report.failed, List.filter_cons_of_neg (by simp [hok])]
      exact .made h ih
    | error e =>
      have hok : ¬o.isOk := by simp [Outcome.isOk_iff, h]
      have hrow : (o.row refusal).cells = [o.group, o.base, "-", "failed: " ++ e.cause refusal] := by
        rw [Outcome.row, h]
        rfl
      rw [List.map_cons, List.map_cons, hrow, Report.failed, List.filter_cons_of_pos (by simp [hok])]
      exact .failed h ih

theorem Accounts.failures_eq_nil_iff (h : Accounts refusal report rows failures) :
    failures = [] ↔ ∀ o ∈ report, ∃ g, o.result = .ok g := by
  induction h with
  | nil => simp
  | made hok _ ih => simp [ih, hok]
  | failed herror _ _ => simp [herror]

theorem Concludes.code_eq_zero_iff (h : Concludes refusal report ending) :
    ending.code = 0 ↔ ∀ o ∈ report, ∃ g, o.result = .ok g := by
  cases h with
  | success haccounts => exact iff_of_true rfl (haccounts.failures_eq_nil_iff.mp rfl)
  | failure haccounts hne => exact iff_of_false Nat.one_ne_zero (mt haccounts.failures_eq_nil_iff.mpr hne)

theorem concludes_reportEnding (refusal : String → String) (report : Report) :
    Concludes refusal report (reportEnding refusal report) := by
  have haccounts := accounts refusal report
  rw [reportEnding]
  cases hfailed : report.failed with
  | nil =>
    rw [hfailed] at haccounts
    exact .success haccounts
  | cons failure failures =>
    rw [hfailed] at haccounts
    exact .failure haccounts (List.cons_ne_nil _ _)

/-! ### The run -/

section Equations

variable {t t' : Tree} {root : FilePath} {component : Option String} {config output : Option FilePath}
  {copiesBack isDry : Bool} {c : Config}

theorem runCommand_of_configIn_error {e : ConfigError} (h : configIn t config = .error e) :
    runCommand refusal Tree.access (.generate root component config output copiesBack isDry) t =
      (failure e.message, t) := by
  simp only [runCommand, bind, StateT.bind, loadConfig_eq, h]
  rfl

theorem runCommand_of_compile_error {e : UnknownGroup} (h : configIn t config = .ok c)
    (hcompile : Compile.compile Tree.access (adjusted c output copiesBack) root isDry component t =
      (.error e, t')) :
    runCommand refusal Tree.access (.generate root component config output copiesBack isDry) t =
      (failure e.message, t') := by
  simp only [runCommand, bind, StateT.bind, loadConfig_eq, h, hcompile]
  rfl

theorem runCommand_of_compile_ok (h : configIn t config = .ok c)
    (hcompile : Compile.compile Tree.access (adjusted c output copiesBack) root isDry component t =
      (.ok report, t')) :
    runCommand refusal Tree.access (.generate root component config output copiesBack isDry) t =
      (reportEnding refusal report, t') := by
  simp only [runCommand, bind, StateT.bind, loadConfig_eq, h, hcompile]
  rfl

end Equations

/-- **Generating.** A run of the command fails at once, with nothing printed and nothing changed, if
the configuration does not load or the component is not known. Else it leaves the tree that
the compilation leaves and gives an account of all outcomes in their order; it succeeds if
they all do. -/
theorem run_generate {arguments : List String} {root : FilePath} {component : Option String}
    {config output : Option FilePath} {copiesBack isDry : Bool}
    (h : parse arguments = some (.run (.generate root component config output copiesBack isDry)))
    (wording : Wording) (t : Tree) :
    match configIn t config with
    | .error e => run wording Tree.access arguments t = ({ code := 1, output := "", message := some e.message }, t)
    | .ok c =>
      match c.select component with
      | .error e => run wording Tree.access arguments t = ({ code := 1, output := "", message := some e.message }, t)
      | .ok gs => ∃ report t' ending,
        Compile.compile Tree.access
          { c with output := output.getD c.output, copiesBack := c.copiesBack && copiesBack }
          root isDry component t = (.ok report, t') ∧
        run wording Tree.access arguments t = (ending, t') ∧
        report.map (fun o => (o.group, o.base)) = gs.flatMap (fun g => g.schemas.map fun base => (g.id, base)) ∧
        Concludes wording.refusal report ending ∧
        (ending.code = 0 ↔ ∀ o ∈ report, ∃ g, o.result = .ok g) := by
  rw [run, h]
  cases hconfig : configIn t config with
  | error e => exact runCommand_of_configIn_error hconfig
  | ok c =>
    dsimp only
    -- the options leave the groups as they are
    have hadjusted : (adjusted c output copiesBack).select component = c.select component := rfl
    cases hselect : c.select component with
    | error e =>
      rw [hselect] at hadjusted
      exact runCommand_of_compile_error hconfig (Compile.compile_of_select_error hadjusted t)
    | ok gs =>
      rw [hselect] at hadjusted
      have hcompile : Compile.compile Tree.access (adjusted c output copiesBack) root isDry component t = _ :=
        Compile.compile_of_select hadjusted t
      have hconcludes := concludes_reportEnding wording.refusal
        (Compile.runAll Tree.access (gs.flatMap (Compile.groupJobs (adjusted c output copiesBack) root isDry)) t).1
      refine ⟨_, _, _, hcompile, runCommand_of_compile_ok hconfig hcompile, ?_, hconcludes,
        hconcludes.code_eq_zero_iff⟩
      exact (Compile.map_label_runAll _ t).trans (Compile.map_label_flatMap _ root isDry gs)

/-- A configuration for schemas that are not there. -/
def project : Tree := ((Tree.empty ⟨"/"⟩).write ⟨"c.yaml"⟩ "schema_ext: x\n".toUTF8).2

def projectArguments : List String :=
  ["-v", "generate", "--config", "c.yaml", "--no-copy-back", ".", "--out-dir=o", "inc"]

/-- For a run in which nothing is said by the libraries. -/
def silence : Wording := ⟨fun _ => "", fun _ => ""⟩

theorem run_generate_project :
    parse projectArguments =
      some (.run (.generate ⟨"."⟩ (some "inc") (some ⟨"c.yaml"⟩) (some ⟨"o"⟩) false false)) ∧
    ∃ report t' ending,
      Compile.compile Tree.access { extension := "x", output := ⟨"o"⟩, copiesBack := false } ⟨"."⟩ false
        (some "inc") project = (.ok report, t') ∧
      run silence Tree.access projectArguments project = (ending, t') ∧
      report.map (fun o => (o.group, o.base)) =
        [("inc", "data_flow_defs"), ("inc", "internal_defs"), ("inc", "internal_nn_defs")] ∧
      Concludes silence.refusal report ending ∧
      (ending.code = 0 ↔ ∀ o ∈ report, ∃ g, o.result = .ok g) := by
  have hparse : parse projectArguments =
      some (.run (.generate ⟨"."⟩ (some "inc") (some ⟨"c.yaml"⟩) (some ⟨"o"⟩) false false)) := by
    decide +kernel
  have hconfig : configIn project (some ⟨"c.yaml"⟩) = .ok { extension := "x" } := by decide +kernel
  have hrun := run_generate hparse silence project
  rw [hconfig] at hrun
  exact ⟨hparse, hrun⟩

end OpHeaders.CommandLine
