import OpHeaders.Proofs.Compile.Rehearsal

/-! Compiling all components at once. A component that has an identifier of its own is compiled as
its group; one group after another, each on the tree that the ones before have left, gives
the same as all groups in one run. -/
namespace OpHeaders

variable {c : Config} {g : SchemaGroup}

/-- With distinct identifiers, every group is found under its own. -/
theorem Config.group?_of_mem (hids : (c.groups.map SchemaGroup.id).Nodup) (hg : g ∈ c.groups) :
    c.group? g.id = some g := by
  obtain ⟨before, after, hgroups⟩ := List.append_of_mem hg
  rw [hgroups, List.map_append, List.map_cons, List.nodup_append] at hids
  have hbefore : ∀ f ∈ before, f.id ≠ g.id := fun f hf =>
    hids.2.2 f.id (List.mem_map_of_mem hf) g.id List.mem_cons_self
  exact List.find?_eq_some_iff_append.mpr ⟨by simp, before, after, hgroups, by simpa using hbefore⟩

namespace Compile

open Files

theorem runAll_append (ps qs : List PlannedJob) (t : Tree) :
    runAll Tree.access (ps ++ qs) t =
      ((runAll Tree.access ps t).1 ++ (runAll Tree.access qs (runAll Tree.access ps t).2).1,
        (runAll Tree.access qs (runAll Tree.access ps t).2).2) := by
  induction ps generalizing t with
  | nil => rfl
  | cons p ps ih => rw [List.cons_append, runAll_cons, runAll_cons, ih, List.cons_append]

/-- A component is the run of its group. -/
theorem compile_of_group? {root : FilePath} {isDry : Bool} (hg : c.group? g.id = some g) (t : Tree) :
    compile Tree.access c root isDry (some g.id) t =
      (.ok (runAll Tree.access (groupJobs c root isDry g) t).1,
        (runAll Tree.access (groupJobs c root isDry g) t).2) := by
  have hselect : c.select (some g.id) = .ok [g] := by rw [Config.select, hg]
  rw [compile_of_select hselect, List.flatMap_singleton]

/-- Compiles components one after another, each on the tree that the ones before have left. -/
def compileInTurn (c : Config) (root : FilePath) (isDry : Bool) (ids : List String) :
    StateM Tree (List (Except UnknownGroup Report)) :=
  ids.mapM fun id => compile Tree.access c root isDry (some id)

theorem compileInTurn_cons (c : Config) (root : FilePath) (isDry : Bool) (id : String) (ids : List String)
    (t : Tree) : compileInTurn c root isDry (id :: ids) t =
      let (result, t₁) := compile Tree.access c root isDry (some id) t
      let (results, t₂) := compileInTurn c root isDry ids t₁
      (result :: results, t₂) := by
  simp only [compileInTurn, List.mapM_cons]
  rfl

/-- The run of groups is cut behind each of them. -/
theorem exists_reports (root : FilePath) (isDry : Bool) {gs : List SchemaGroup}
    (hgs : ∀ g ∈ gs, c.group? g.id = some g) (t : Tree) :
    ∃ (reports : List Report) (t' : Tree),
      compileInTurn c root isDry (gs.map SchemaGroup.id) t = (reports.map .ok, t') ∧
      runAll Tree.access (gs.flatMap (groupJobs c root isDry)) t = (reports.flatten, t') := by
  induction gs generalizing t with
  | nil => exact ⟨[], t, rfl, rfl⟩
  | cons g gs ih =>
    rw [List.forall_mem_cons] at hgs
    obtain ⟨reports, t', hturn, hrun⟩ := ih hgs.2 (runAll Tree.access (groupJobs c root isDry g) t).2
    refine ⟨(runAll Tree.access (groupJobs c root isDry g) t).1 :: reports, t', ?_, ?_⟩
    · rw [List.map_cons, compileInTurn_cons, compile_of_group? hgs.1]
      simp only [hturn, List.map_cons]
    · rw [List.flatMap_cons, runAll_append, hrun, List.flatten_cons]

/-- **Components.** If no two groups have the same identifier, compiling all of them leaves the tree and
has the outcomes, in order, of compiling the components of the table one after another. Each
of these runs comes to its report, whatever has failed before. -/
theorem compile_componentwise (hids : (c.groups.map SchemaGroup.id).Nodup) (root : FilePath) (isDry : Bool)
    (t : Tree) :
    ∃ (reports : List Report) (t' : Tree),
      compileInTurn c root isDry (c.groups.map SchemaGroup.id) t = (reports.map .ok, t') ∧
      compile Tree.access c root isDry none t = (.ok reports.flatten, t') := by
  obtain ⟨reports, t', hturn, hrun⟩ := exists_reports root isDry (fun _ => Config.group?_of_mem hids) t
  refine ⟨reports, t', hturn, ?_⟩
  rw [compile_of_select rfl, hrun]

/-- Both groups write to the same places, and one of the schemas is missing. -/
theorem compile_componentwise_crowded :
    (crowded.groups.map SchemaGroup.id).Nodup ∧
    ∃ (reports : List Report) (t' : Tree),
      compileInTurn crowded ⟨""⟩ false ["a", "b"] (Job.bare ⟨"src/x.yaml"⟩) = (reports.map .ok, t') ∧
      compile Tree.access crowded ⟨""⟩ false none (Job.bare ⟨"src/x.yaml"⟩) = (.ok reports.flatten, t') := by
  have hids : (crowded.groups.map SchemaGroup.id).Nodup := by decide
  exact ⟨hids, compile_componentwise hids ⟨""⟩ false _⟩

end Compile

end OpHeaders
