import OpHeaders.Proofs.Compile.Order
import OpHeaders.Proofs.Compile.Sources

/-! Compiling again. Where every header was made, the second compilation reads the same schemas and
finds the directories made and the files in place. It writes what the first one has written, in
the same order, so the file that is written last at each place is the one that is there. -/
namespace OpHeaders.Compile

open Files

variable {t t' u : Tree} {ps : List PlannedJob}

/-- Writes that leave in the files what is there leave the tree as it is. -/
theorem eq_of_overwrites {ws : List Write} (h : Tree.Overwrites ws t t')
    (hthere : ∀ l content, lastWrite ws l = some content → t.content? l = some content) : t' = t := by
  apply Tree.ext_entries h.start_eq
  intro l
  rw [h.entries_eq l]
  cases hlast : lastWrite ws l with
  | none => rfl
  | some content =>
    have hfile : t.find? l = some (.file content) := Tree.content?_eq_some_iff.mp (hthere l content hlast)
    cases l with
    | nil => cases hfile
    | cons n l =>
      rw [Tree.find?_cons] at hfile
      rw [hfile]
      rfl

/-! ### A job -/

namespace Job

variable {j : Job} {g : Generated}

/-- A job that has made its header makes it again, and replaces the files that it has written. -/
theorem run_again (hdry : j.isDry = false) (hend : ¬headerEnd <:+ j.schema.text.toList)
    (h : j.Runs t (.ok g) t') (hkeeps : KeepsSources t' u) :
    ∃ u', j.run Tree.access u = (.ok g, u') ∧ Tree.Overwrites (j.writes t (.ok g)) u u' := by
  have hsources : KeepsSources t u := h.keepsSources.trans hkeeps
  cases h with
  | written hload hwrite hcopy =>
    obtain ⟨u₁, hwrite₁, hover⟩ := Tree.write_again hwrite hkeeps.toExtends _
    refine ⟨u₁, ?_, ?_⟩
    · rw [run_of_loaded_ok hdry (loaded_of_keepsSources hend hsources hload), writeHeader_of_ok hwrite₁,
        writeCopy_of_none hcopy]
    · simp only [writes, hload, Job.written, generated, hcopy]
      exact hover
  | copied hload hwrite hcopy hwrite' =>
    have hcopied := Extends.of_rewrites (.of_write_ok (mem_targets_of_copyPath hcopy) hwrite')
    obtain ⟨u₁, hwrite₁, hover⟩ := Tree.write_again hwrite (hcopied.trans hkeeps.toExtends) _
    -- where the header goes to the place of the copy, the copy replaces it again
    have hfirst := Extends.of_rewrites (.of_write_ok j.headerPath_mem_targets hwrite₁)
    obtain ⟨u₂, hwrite₂, hover'⟩ := Tree.write_again hwrite' (hkeeps.toExtends.trans hfirst) _
    refine ⟨u₂, ?_, ?_⟩
    · rw [run_of_loaded_ok hdry (loaded_of_keepsSources hend hsources hload), writeHeader_of_ok hwrite₁,
        writeCopy_of_ok hcopy hwrite₂]
    · simp only [writes, hload, Job.written, generated, hcopy]
      exact hover.trans hover'

end Job

/-! ### A run -/

theorem runAll_again (hdry : ∀ p ∈ ps, p.job.isDry = false)
    (hend : ∀ p ∈ ps, ¬headerEnd <:+ p.job.schema.text.toList)
    (hok : ∀ o ∈ (runAll Tree.access ps t).1, o.isOk) (hkeeps : KeepsSources (runAll Tree.access ps t).2 u) :
    ∃ u', runAll Tree.access ps u = ((runAll Tree.access ps t).1, u') ∧
      Tree.Overwrites ((steps t ps).flatMap Step.writes) u u' := by
  induction ps generalizing t u with
  | nil => exact ⟨u, rfl, .refl u⟩
  | cons p ps ih =>
    rw [List.forall_mem_cons] at hdry hend
    rw [runAll_cons] at hok hkeeps
    rw [List.forall_mem_cons] at hok
    obtain ⟨g, hg⟩ := Outcome.isOk_iff.mp hok.1
    rw [PlannedJob.run_eq] at hg
    dsimp only at hg
    have hruns := Job.runs hdry.1 t
    rw [hg] at hruns
    -- the sources outlast the rest of the first run, and then the repeated job
    have hrest : KeepsSources (p.run Tree.access t).2 u := (keepsSources_runAll ps _).trans hkeeps
    obtain ⟨u₁, hrun, hover⟩ := Job.run_again hdry.1 hend.1 hruns hrest
    have hkeeps₁ : KeepsSources u u₁ := by
      have hrun' := p.job.keepsSources_run u
      rw [hrun] at hrun'
      exact hrun'
    obtain ⟨u₂, hruns₂, hover₂⟩ := ih hdry.2 hend.2 hok.2 (hkeeps.trans hkeeps₁)
    refine ⟨u₂, ?_, ?_⟩
    · rw [runAll_cons, runAll_cons, PlannedJob.run_eq, hrun, hruns₂, PlannedJob.run_eq, hg]
    · rw [steps, List.flatMap_cons, Step.writes, Step.outcome, PlannedJob.run_eq, hg]
      exact hover.trans hover₂

/-- **Idempotence.** Where a compilation has made every header, compiling again reports the same and
changes nothing. -/
theorem compile_again {c : Config} (hne : c.extension ≠ "h") (hend : ¬".h".toList <:+ c.extension.toList)
    (root : FilePath) (component : Option String) {report : Report}
    (h : compile Tree.access c root false component t = (.ok report, t')) (hok : report.isSuccess) :
    compile Tree.access c root false component t' = (.ok report, t') := by
  cases hselect : c.select component with
  | error e =>
    rw [compile_of_select_error hselect t] at h
    cases h
  | ok gs =>
    rw [compile_of_select hselect] at h ⊢
    cases h
    have hdry : ∀ p ∈ gs.flatMap (groupJobs c root false), p.job.isDry = false :=
      fun _ => isDry_of_mem_groupJobs
    obtain ⟨u, hagain, hover⟩ := runAll_again hdry (not_headerEnd_of_mem_groupJobs hne hend)
      (List.all_eq_true.mp hok) (.refl _)
    rw [hagain]
    congr 1
    apply eq_of_overwrites hover
    intro l content hlast
    rw [(runAll_rewrites hdry t).content l, hlast, Option.some_or]

/-- Two groups with the same schema and the same places for its header, next to the schema. -/
def shared : Config where
  output := ⟨"src"⟩
  groups := [⟨"a", ⟨"src"⟩, "a_", ⟨""⟩, ["x"]⟩, ⟨"b", ⟨"src"⟩, "b_", ⟨"new/.."⟩, ["x"]⟩]

theorem compile_again_shared :
    shared.extension ≠ "h" ∧ ¬".h".toList <:+ shared.extension.toList ∧
    ∃ report t', compile Tree.access shared ⟨""⟩ false none (Job.bare ⟨"src/x.yaml"⟩) = (.ok report, t') ∧
      report.length = 2 ∧ report.isSuccess ∧
      compile Tree.access shared ⟨""⟩ false none t' = (.ok report, t') := by
  have hne : shared.extension ≠ "h" := by decide
  have hend : ¬".h".toList <:+ shared.extension.toList := by decide
  have hselect : shared.select none = .ok shared.groups := rfl
  have hok : (runAll Tree.access (shared.groups.flatMap (groupJobs shared ⟨""⟩ false))
      (Job.bare ⟨"src/x.yaml"⟩)).1.isSuccess := by decide +kernel
  refine ⟨hne, hend, _, _, compile_of_select hselect _, by decide +kernel, hok, ?_⟩
  exact compile_again hne hend ⟨""⟩ none (compile_of_select hselect _) hok

end OpHeaders.Compile
