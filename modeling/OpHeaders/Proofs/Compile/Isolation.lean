import Mathlib.Data.List.InsertIdx
import OpHeaders.Proofs.Compile.Effect
import OpHeaders.Proofs.Config.Slot

/-! Every schema of the selected groups has its outcome, whatever becomes of the others. A
schema that does not load leaves no trace: without it in the table, the run goes the same
way and every other outcome is the same. -/
namespace OpHeaders.Compile

open Files

variable (c : Config) (root : FilePath) (isDry : Bool)

/-! ### The jobs without one -/

theorem length_groupJobs (g : SchemaGroup) : (groupJobs c root isDry g).length = g.schemas.length :=
  List.length_map ..

theorem groupJobs_without_schema (g : SchemaGroup) (n : Nat) :
    groupJobs c root isDry (g.without n) = (groupJobs c root isDry g).eraseIdx n :=
  (List.eraseIdx_map (fun base => PlannedJob.mk g.id (jobFor c root isDry g base)) g.schemas n).symm

theorem flatMap_groupJobs_modify {gs : List SchemaGroup} {i n : Nat} {s : Slot}
    (h : (slotsFrom i gs)[n]? = some s) : ∃ k, s.group = i + k ∧
      (gs.modify k fun g => g.without s.schema).flatMap (groupJobs c root isDry) =
        (gs.flatMap (groupJobs c root isDry)).eraseIdx n := by
  induction gs generalizing i n with
  | nil => simp [slotsFrom] at h
  | cons g gs ih =>
    have hlength := length_groupJobs c root isDry g
    by_cases hn : n < g.schemas.length
    · rw [slotsFrom, List.getElem?_append_left (by rwa [g.length_slots])] at h
      obtain ⟨-, rfl⟩ := SchemaGroup.getElem?_slots h
      refine ⟨0, rfl, ?_⟩
      rw [List.modify_zero_cons, List.flatMap_cons, List.flatMap_cons, groupJobs_without_schema,
        List.eraseIdx_append_of_lt_length (hlength ▸ hn)]
    · have hn := Nat.le_of_not_lt hn
      rw [slotsFrom, List.getElem?_append_right (by rwa [g.length_slots]), g.length_slots] at h
      obtain ⟨k, hk, hjobs⟩ := ih h
      refine ⟨k + 1, by omega, ?_⟩
      rw [List.modify_succ_cons, List.flatMap_cons, List.flatMap_cons, hjobs,
        List.eraseIdx_append_of_length_le (hlength ▸ hn), hlength]

variable {c} in
/-- Without the schema in a slot, the selected jobs are the others. -/
theorem select_without {component : Option String} {gs : List SchemaGroup} {n : Nat} {s : Slot}
    (h : c.select component = .ok gs) (hs : (c.slots component)[n]? = some s) :
    ∃ gs', (c.without s).select component = .ok gs' ∧
      gs'.flatMap (groupJobs (c.without s) root isDry) = (gs.flatMap (groupJobs c root isDry)).eraseIdx n := by
  cases component with
  | none =>
    cases h
    obtain ⟨k, hk, hjobs⟩ := flatMap_groupJobs_modify c root isDry hs
    rw [Nat.zero_add] at hk
    exact ⟨_, rfl, by rw [← hjobs, ← hk]; rfl⟩
  | some id =>
    rw [Config.select] at h
    split at h
    · next g hg =>
      cases h
      obtain ⟨before, after, hgroups, hid, hbefore, hnumber⟩ := Config.exists_of_group? hg
      rw [Config.slots, hg, Option.elim_some, hnumber] at hs
      obtain ⟨-, rfl⟩ := SchemaGroup.getElem?_slots hs
      have hgroups' : (c.without ⟨before.length, n⟩).groups = before ++ g.without n :: after := by
        rw [Config.without, hgroups, List.modify_eq_take_cons_drop (by simp)]
        simp
      have hgroup : (c.without ⟨before.length, n⟩).group? id = some (g.without n) := by
        rw [Config.group?, hgroups']
        exact List.find?_eq_some_iff_append.mpr ⟨by simpa using hid, before, after, rfl, by simpa using hbefore⟩
      refine ⟨[g.without n], by rw [Config.select, hgroup], ?_⟩
      rw [List.flatMap_singleton, List.flatMap_singleton, ← groupJobs_without_schema]
      rfl
    · cases h

/-! ### Jobs that do not load -/

/-- Whether the schema was not found or not accepted. -/
def Outcome.isUnloaded (o : Outcome) : Bool :=
  match o.result with
  | .error (.loading _ _) => true
  | _ => false

def Outcome.label (o : Outcome) : String × String := (o.group, o.base)

/-- A job that does not load leaves the tree as it is. -/
theorem Job.eq_of_run_eq_loading {j : Job} {t t' : Tree} {schema : FilePath} {e : LoadError}
    (h : j.run Tree.access t = (.error (.loading schema e), t')) : t' = t := by
  cases Job.runs_of_run_error h with
  | unloaded hload => rfl

theorem run_eq_of_isUnloaded {p : PlannedJob} {t : Tree} (h : (p.run Tree.access t).1.isUnloaded) :
    (p.run Tree.access t).2 = t := by
  rcases hrun : p.job.run Tree.access t with ⟨r, t'⟩
  have hp : p.run Tree.access t = (⟨p.group, p.job.base, r⟩, t') := by
    simp only [PlannedJob.run, bind, StateT.bind, hrun]
    rfl
  rw [hp] at h ⊢
  unfold Outcome.isUnloaded at h
  split at h
  · next hr =>
    obtain rfl : r = _ := hr
    exact Job.eq_of_run_eq_loading hrun
  · cases h

theorem runAll_eraseIdx {ps : List PlannedJob} {t : Tree} {n : Nat} {o : Outcome}
    (ho : (runAll Tree.access ps t).1[n]? = some o) (h : o.isUnloaded) :
    runAll Tree.access (ps.eraseIdx n) t =
      ((runAll Tree.access ps t).1.eraseIdx n, (runAll Tree.access ps t).2) := by
  induction ps generalizing n t with
  | nil => cases ho
  | cons p ps ih =>
    rw [runAll_cons] at ho
    cases n with
    | zero =>
      obtain rfl : (p.run Tree.access t).1 = o := by simpa using ho
      rw [List.eraseIdx_cons_zero, runAll_cons, run_eq_of_isUnloaded h]
      rfl
    | succ n =>
      rw [List.eraseIdx_cons_succ, runAll_cons, runAll_cons, ih (by simpa using ho)]
      rfl

theorem map_label_runAll (ps : List PlannedJob) (t : Tree) :
    (runAll Tree.access ps t).1.map Outcome.label = ps.map fun p => (p.group, p.job.base) := by
  induction ps generalizing t with
  | nil => rfl
  | cons p ps ih =>
    rw [runAll_cons, List.map_cons, ih, List.map_cons]
    rfl

theorem map_label_flatMap (gs : List SchemaGroup) :
    ((gs.flatMap (groupJobs c root isDry)).map fun p => (p.group, p.job.base)) =
      gs.flatMap SchemaGroup.labels := by
  rw [List.map_flatMap]
  refine List.flatMap_congr fun g _ => ?_
  rw [groupJobs, List.map_map]
  rfl

/-- **Isolation.** A compilation has one outcome for every schema of the selected groups, in the order
of the table. If a schema does not load, then the run without it leaves the same tree behind
and has all the other outcomes. -/
theorem compile_isolated (c : Config) (root : FilePath) (isDry : Bool) (component : Option String) (t : Tree) :
    match c.select component with
    | .error e => compile Tree.access c root isDry component t = (.error e, t)
    | .ok gs => ∃ report t', compile Tree.access c root isDry component t = (.ok report, t') ∧
        report.map Outcome.label = gs.flatMap (fun g => g.schemas.map fun base => (g.id, base)) ∧
        (c.slots component).map c.label? = report.map (some ·.label) ∧
        ∀ n s o, (c.slots component)[n]? = some s → report[n]? = some o → o.isUnloaded →
          compile Tree.access (c.without s) root isDry component t = (.ok (report.eraseIdx n), t') := by
  cases hselect : c.select component with
  | error e => exact compile_of_select_error hselect t
  | ok gs =>
    have hlabels : (runAll Tree.access (gs.flatMap (groupJobs c root isDry)) t).1.map Outcome.label =
        gs.flatMap SchemaGroup.labels := by
      rw [map_label_runAll, map_label_flatMap]
    refine ⟨_, _, compile_of_select hselect t, hlabels, ?_, fun n s o hs ho h => ?_⟩
    · rw [Config.map_label?_slots_eq hselect, ← hlabels, List.map_map]
      rfl
    · obtain ⟨gs', hselect', hjobs⟩ := select_without root isDry hselect hs
      rw [compile_of_select hselect', hjobs, runAll_eraseIdx ho h]

end OpHeaders.Compile
