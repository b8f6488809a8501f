import OpHeaders.Proofs.Compile.Order
import OpHeaders.Proofs.Compile.Sources

/-! A dry run as a rehearsal. It writes nothing, so each job finds the tree of the start, while
in the real run it finds what the jobs before it have left. The sources are the same in both:
a header that the rehearsal promises is made, or the files could not be written. -/
namespace OpHeaders.Compile

open Files
open Schema (Catalog)

/-- Whether the schema was loaded and the header or its copy could not be written. -/
def Outcome.isUnwritten (o : Outcome) : Bool :=
  match o.result with
  | .error (.writing _ _) | .error (.copying _ _) => true
  | _ => false

/-- What an outcome of a dry run says about the real one. -/
structure Rehearses (o o' : Outcome) : Prop where
  group : o'.group = o.group
  base : o'.base = o.base
  result : ∀ g, o.result = .ok g → o'.result = .ok g ∨ o'.isUnwritten

def PlannedJob.dry (p : PlannedJob) : PlannedJob := { p with job := { p.job with isDry := true } }

/-! ### One job -/

variable {t t' : Tree}

/-- Once its schema is loaded, a job makes its header unless it cannot write. -/
theorem Job.run_of_loaded {j : Job} {c : Catalog} (hdry : j.isDry = false) (h : j.loaded t = .ok c) :
    (j.run Tree.access t).1 = .ok (j.generated c) ∨
      (∃ f, (j.run Tree.access t).1 = .error (.writing j.base f)) ∨
      ∃ copy f, (j.run Tree.access t).1 = .error (.copying copy f) := by
  have hruns := Job.runs hdry t
  generalize (j.run Tree.access t).1 = r at hruns ⊢
  generalize (j.run Tree.access t).2 = u at hruns
  cases hruns with
  | unloaded hload =>
    rw [h] at hload
    cases hload
  | unwritten => exact .inr (.inl ⟨_, rfl⟩)
  | uncopied => exact .inr (.inr ⟨_, _, rfl⟩)
  | written hload | copied hload =>
    rw [h] at hload
    cases hload
    exact .inl rfl

theorem PlannedJob.run_dry (p : PlannedJob) (t : Tree) : (p.dry.run Tree.access t).2 = t := by
  rw [PlannedJob.run_eq]
  cases h : p.dry.job.loaded t with
  | error e => rw [Job.run_of_loaded_error h]
  | ok c => rw [Job.run_of_isDry rfl h]

theorem rehearses_run {p : PlannedJob} (hdry : p.job.isDry = false)
    (hend : ¬headerEnd <:+ p.job.schema.text.toList) (hkeeps : KeepsSources t t') :
    Rehearses (p.dry.run Tree.access t).1 (p.run Tree.access t').1 := by
  rw [PlannedJob.run_eq, PlannedJob.run_eq]
  refine ⟨rfl, rfl, ?_⟩
  intro g hg
  dsimp only at hg
  cases h : p.job.loaded t with
  | error e =>
    rw [Job.run_of_loaded_error (show p.dry.job.loaded t = .error e from h)] at hg
    cases hg
  | ok c =>
    rw [Job.run_of_isDry rfl (show p.dry.job.loaded t = .ok c from h)] at hg
    cases hg
    rcases Job.run_of_loaded hdry (Job.loaded_of_keepsSources hend hkeeps h) with h | ⟨f, h⟩ | ⟨copy, f, h⟩
    · exact .inl h
    · exact .inr (by simp [Outcome.isUnwritten, h])
    · exact .inr (by simp [Outcome.isUnwritten, h])

/-! ### A run -/

theorem runAll_dry (ps : List PlannedJob) (t : Tree) :
    (runAll Tree.access (ps.map PlannedJob.dry) t).2 = t := by
  induction ps with
  | nil => rfl
  | cons p ps ih => rw [List.map_cons, runAll_cons, p.run_dry, ih]

/-- The dry run stays at its tree; the real one goes on to trees with the same sources. -/
theorem rehearses_runAll {ps : List PlannedJob} (hdry : ∀ p ∈ ps, p.job.isDry = false)
    (hend : ∀ p ∈ ps, ¬headerEnd <:+ p.job.schema.text.toList) (hkeeps : KeepsSources t t') :
    List.Forall₂ Rehearses (runAll Tree.access (ps.map PlannedJob.dry) t).1 (runAll Tree.access ps t').1 := by
  induction ps generalizing t' with
  | nil => exact .nil
  | cons p ps ih =>
    rw [List.forall_mem_cons] at hdry hend
    rw [List.map_cons, runAll_cons, runAll_cons, p.run_dry]
    have hafter : KeepsSources t (p.run Tree.access t').2 := hkeeps.trans (p.job.keepsSources_run t')
    exact .cons (rehearses_run hdry.1 hend.1 hkeeps) (ih hdry.2 hend.2 hafter)

theorem flatMap_groupJobs_dry (c : Config) (root : FilePath) (gs : List SchemaGroup) :
    gs.flatMap (groupJobs c root true) = (gs.flatMap (groupJobs c root false)).map PlannedJob.dry := by
  rw [List.map_flatMap]
  refine List.flatMap_congr fun g _ => ?_
  rw [groupJobs, groupJobs, List.map_map]
  rfl

/-- **Rehearsal.** A dry compilation leaves the tree as it is and has an outcome for every outcome of
the real one. Where it promises a header, the real compilation makes the same header or
cannot write; the schema is loaded in any case. -/
theorem compile_rehearsed {c : Config} (hne : c.extension ≠ "h") (hend : ¬".h".toList <:+ c.extension.toList)
    (root : FilePath) (component : Option String) (t : Tree) :
    match c.select component with
    | .error e => compile Tree.access c root true component t = (.error e, t) ∧
        compile Tree.access c root false component t = (.error e, t)
    | .ok _ => ∃ rehearsal report t', compile Tree.access c root true component t = (.ok rehearsal, t) ∧
        compile Tree.access c root false component t = (.ok report, t') ∧
        List.Forall₂ Rehearses rehearsal report := by
  cases hselect : c.select component with
  | error e => exact ⟨compile_of_select_error hselect t, compile_of_select_error hselect t⟩
  | ok gs =>
    refine ⟨_, _, _, ?_, compile_of_select hselect t, rehearses_runAll ?_ ?_ (.refl t)⟩
    · rw [compile_of_select hselect t, flatMap_groupJobs_dry, runAll_dry]
    · exact fun p hp => isDry_of_mem_groupJobs hp
    · exact not_headerEnd_of_mem_groupJobs hne hend

/-- Schemas, headers and copies in one directory; both groups write to the same places. -/
def crowded : Config where
  output := ⟨"src"⟩
  groups := [⟨"a", ⟨"src/sub/.."⟩, "a_", ⟨"sub/.."⟩, ["x", "y"]⟩, ⟨"b", ⟨"src"⟩, "b_", ⟨""⟩, ["y", "x"]⟩]

/-- Only one of the schemas is there. -/
theorem compile_rehearsed_crowded :
    crowded.extension ≠ "h" ∧ ¬".h".toList <:+ crowded.extension.toList ∧
    ∃ rehearsal report t',
      compile Tree.access crowded ⟨""⟩ true none (Job.bare ⟨"src/x.yaml"⟩) =
        (.ok rehearsal, Job.bare ⟨"src/x.yaml"⟩) ∧
      compile Tree.access crowded ⟨""⟩ false none (Job.bare ⟨"src/x.yaml"⟩) = (.ok report, t') ∧
      List.Forall₂ Rehearses rehearsal report := by
  have hne : crowded.extension ≠ "h" := by decide
  have hend : ¬".h".toList <:+ crowded.extension.toList := by decide
  exact ⟨hne, hend, compile_rehearsed hne hend ⟨""⟩ none _⟩

end OpHeaders.Compile
