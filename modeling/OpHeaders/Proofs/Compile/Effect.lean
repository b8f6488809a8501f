import OpHeaders.Compile.Report
import OpHeaders.Proofs.Files.Rewriting

/-! What a compilation does to a tree of files. Each job finds the tree that the jobs before
it have left. Its result says which files it has written; the effects of all jobs compose
to that of the run. -/
namespace OpHeaders.Compile

open Files
open Schema (Catalog)

/-! ### One job -/

namespace Job

variable {j : Job} {t t' : Tree} {r : Except JobError Generated}

/-- What loading the schema gives. -/
def loaded (j : Job) (t : Tree) : Except LoadError Catalog := (loadCatalog Tree.access j.schema t).1

def content (j : Job) (c : Catalog) : ByteArray := (j.headerText c).toUTF8

/-- Where the header and its copy go. -/
def directories (j : Job) : List FilePath := j.output :: j.copyTo.toList

/-- Where the job may write to. -/
def targets (j : Job) : List FilePath := j.headerPath :: j.copyPath.toList

theorem headerPath_mem_targets (j : Job) : j.headerPath ∈ j.targets := List.mem_cons_self

theorem mem_targets_of_copyPath {copy : FilePath} (h : j.copyPath = some copy) : copy ∈ j.targets := by
  rw [targets, h]
  exact List.mem_cons_of_mem _ (List.mem_singleton_self copy)

theorem exists_of_mem_targets {p : FilePath} (h : p ∈ j.targets) :
    ∃ d ∈ j.directories, p = d.join j.fileName := by
  rcases List.mem_cons.1 h with rfl | h
  · exact ⟨j.output, List.mem_cons_self, rfl⟩
  · obtain ⟨d, hd, rfl⟩ := Option.map_eq_some_iff.1 (Option.mem_toList.1 h)
    exact ⟨d, List.mem_cons_of_mem _ (Option.mem_toList.2 hd), rfl⟩

theorem loadCatalog_eq (j : Job) (t : Tree) : loadCatalog Tree.access j.schema t = (j.loaded t, t) := by
  refine Prod.ext rfl ?_
  simp only [loadCatalog, Tree.access, bind, StateT.bind]
  cases t.read j.schema with
  | ok text =>
    dsimp only
    cases Catalog.ofText j.schema.text text <;> rfl
  | error fault => cases fault <;> rfl

theorem loaded_of_read_error {f : Fault} (h : t.read j.schema = .error f) :
    j.loaded t = .error (if f = .notFound then .notFound j.schema
      else .malformed ⟨.document j.schema.text, .unreadable f⟩) := by
  simp only [loaded, loadCatalog, Tree.access, bind, StateT.bind, h]
  cases f <;> rfl

theorem loaded_of_read_ok {text : String} (h : t.read j.schema = .ok text) :
    j.loaded t = (Catalog.ofText j.schema.text text).mapError .malformed := by
  simp only [loaded, loadCatalog, Tree.access, bind, StateT.bind, h]
  cases Catalog.ofText j.schema.text text <;> rfl

/-- The ways that a job can go that is not dry. -/
inductive Runs (j : Job) (t : Tree) : Except JobError Generated → Tree → Prop where
  | unloaded {e : LoadError} :
    j.loaded t = .error e → Runs j t (.error (.loading j.schema e)) t
  | unwritten {c : Catalog} {f : WriteFault} {t₁ : Tree} :
    j.loaded t = .ok c → t.write j.headerPath (j.content c) = (.error f, t₁) →
    Runs j t (.error (.writing j.base f)) t₁
  | uncopied {c : Catalog} {copy : FilePath} {f : WriteFault} {t₁ t₂ : Tree} :
    j.loaded t = .ok c → t.write j.headerPath (j.content c) = (.ok (), t₁) →
    j.copyPath = some copy → t₁.write copy (j.content c) = (.error f, t₂) →
    Runs j t (.error (.copying copy f)) t₂
  | written {c : Catalog} {t₁ : Tree} :
    j.loaded t = .ok c → t.write j.headerPath (j.content c) = (.ok (), t₁) →
    j.copyPath = none → Runs j t (.ok (j.generated c)) t₁
  | copied {c : Catalog} {copy : FilePath} {t₁ t₂ : Tree} :
    j.loaded t = .ok c → t.write j.headerPath (j.content c) = (.ok (), t₁) →
    j.copyPath = some copy → t₁.write copy (j.content c) = (.ok (), t₂) →
    Runs j t (.ok (j.generated c)) t₂

section Equations

variable {c : Catalog} {copy : FilePath} {f : WriteFault}

theorem run_of_loaded_error {e : LoadError} (h : j.loaded t = .error e) :
    j.run Tree.access t = (.error (.loading j.schema e), t) := by
  simp only [run, bind, StateT.bind, loadCatalog_eq, h]
  rfl

theorem run_of_isDry (hdry : j.isDry = true) (h : j.loaded t = .ok c) :
    j.run Tree.access t = (.ok (j.generated c), t) := by
  simp only [run, bind, StateT.bind, loadCatalog_eq, h, hdry]
  rfl

theorem run_of_loaded_ok (hdry : j.isDry = false) (h : j.loaded t = .ok c) :
    j.run Tree.access t = j.writeHeader Tree.access c t := by
  simp only [run, bind, StateT.bind, loadCatalog_eq, h, hdry]
  rfl

theorem writeHeader_of_error (h : t.write j.headerPath (j.content c) = (.error f, t')) :
    j.writeHeader Tree.access c t = (.error (.writing j.base f), t') := by
  rw [content] at h
  simp only [writeHeader, bind, StateT.bind, Tree.access, h]
  rfl

theorem writeHeader_of_ok (h : t.write j.headerPath (j.content c) = (.ok (), t')) :
    j.writeHeader Tree.access c t = j.writeCopy Tree.access c t' := by
  rw [content] at h
  simp only [writeHeader, bind, StateT.bind, Tree.access, h]

theorem writeCopy_of_none (hcopy : j.copyPath = none) (t : Tree) :
    j.writeCopy Tree.access c t = (.ok (j.generated c), t) := by
  rw [writeCopy, hcopy]
  rfl

theorem writeCopy_of_error (hcopy : j.copyPath = some copy)
    (h : t.write copy (j.content c) = (.error f, t')) :
    j.writeCopy Tree.access c t = (.error (.copying copy f), t') := by
  rw [content] at h
  simp only [writeCopy, hcopy, bind, StateT.bind, Tree.access, h]
  rfl

theorem writeCopy_of_ok (hcopy : j.copyPath = some copy)
    (h : t.write copy (j.content c) = (.ok (), t')) :
    j.writeCopy Tree.access c t = (.ok (j.generated c), t') := by
  rw [content] at h
  simp only [writeCopy, hcopy, bind, StateT.bind, Tree.access, h]
  rfl

end Equations

theorem runs (hdry : j.isDry = false) (t : Tree) :
    j.Runs t (j.run Tree.access t).1 (j.run Tree.access t).2 := by
  cases hload : j.loaded t with
  | error e =>
    rw [run_of_loaded_error hload]
    exact .unloaded hload
  | ok c =>
    rw [run_of_loaded_ok hdry hload]
    rcases hwrite : t.write j.headerPath (j.content c) with ⟨f | ⟨⟩, t₁⟩
    · rw [writeHeader_of_error hwrite]
      exact .unwritten hload hwrite
    · rw [writeHeader_of_ok hwrite]
      cases hcopy : j.copyPath with
      | none =>
        rw [writeCopy_of_none hcopy]
        exact .written hload hwrite hcopy
      | some copy =>
        rcases hwrite' : t₁.write copy (j.content c) with ⟨f | ⟨⟩, t₂⟩
        · rw [writeCopy_of_error hcopy hwrite']
          exact .uncopied hload hwrite hcopy hwrite'
        · rw [writeCopy_of_ok hcopy hwrite']
          exact .copied hload hwrite hcopy hwrite'

/-- A job that fails goes one of these ways even if it is dry. -/
theorem runs_of_run_error {e : JobError} (h : j.run Tree.access t = (.error e, t')) :
    j.Runs t (.error e) t' := by
  cases hdry : j.isDry with
  | false =>
    have hruns := runs hdry t
    rwa [h] at hruns
  | true =>
    cases hload : j.loaded t with
    | ok c =>
      rw [run_of_isDry hdry hload] at h
      cases h
    | error e' =>
      rw [run_of_loaded_error hload] at h
      cases h
      exact .unloaded hload

/-! ### What a job writes -/

/-- The files that a job has written, going by its result. -/
def written (j : Job) : Except JobError Generated → List FilePath
  | .ok g => g.header :: g.copy.toList
  | .error (.copying _ _) => [j.headerPath]
  | .error (.writing _ _) | .error (.loading _ _) => []

/-- The header is written if the schema loads and the write of the header succeeds; the copy is
written if its write succeeds too. -/
def succeeding (j : Job) (t : Tree) : List FilePath :=
  match j.loaded t with
  | .error _ => []
  | .ok c => match t.write j.headerPath (j.content c) with
    | (.error _, _) => []
    | (.ok (), t₁) =>
      j.headerPath :: (j.copyPath.filter fun copy => (t₁.write copy (j.content c)).1.isOk).toList

/-- Every file is written with the whole text of the header. -/
def writes (j : Job) (t : Tree) (r : Except JobError Generated) : List Write :=
  match j.loaded t with
  | .error _ => []
  | .ok c => (j.written r).map fun p => ⟨p.location, j.content c⟩

theorem Runs.written_eq (h : j.Runs t r t') : j.written r = j.succeeding t := by
  cases h with
  | unloaded hload => simp only [Job.written, succeeding, hload]
  | unwritten hload hwrite => simp only [Job.written, succeeding, hload, hwrite]
  | uncopied hload hwrite hcopy hwrite' =>
    simp only [Job.written, succeeding, hload, hwrite, hcopy, Option.filter_some, hwrite', Except.isOk,
      Except.toBool]
    rfl
  | written hload hwrite hcopy =>
    simp only [Job.written, succeeding, hload, hwrite, generated, hcopy]
    rfl
  | copied hload hwrite hcopy hwrite' =>
    simp only [Job.written, succeeding, hload, hwrite, generated, hcopy, Option.filter_some, hwrite',
      Except.isOk, Except.toBool]
    rfl

theorem Runs.rewrites (h : j.Runs t r t') : Rewrites j.targets (j.writes t r) t t' := by
  have hheader := j.headerPath_mem_targets
  cases h with
  | unloaded hload =>
    simp only [writes, hload]
    exact .refl _ t
  | unwritten hload hwrite =>
    simp only [writes, hload, Job.written]
    exact .of_write_error hheader hwrite
  | uncopied hload hwrite hcopy hwrite' =>
    simp only [writes, hload, Job.written]
    have hmem := mem_targets_of_copyPath hcopy
    exact (Rewrites.of_write_ok hheader hwrite).trans (.of_write_error hmem hwrite')
  | written hload hwrite hcopy =>
    simp only [writes, hload, Job.written, generated, hcopy]
    exact .of_write_ok hheader hwrite
  | copied hload hwrite hcopy hwrite' =>
    simp only [writes, hload, Job.written, generated, hcopy]
    have hmem := mem_targets_of_copyPath hcopy
    exact (Rewrites.of_write_ok hheader hwrite).trans (.of_write_ok hmem hwrite')

/-- A dry job changes nothing. -/
theorem exists_rewrites_run (j : Job) (t : Tree) : ∃ ws, Rewrites j.targets ws t (j.run Tree.access t).2 := by
  cases hdry : j.isDry with
  | false => exact ⟨_, (runs hdry t).rewrites⟩
  | true =>
    refine ⟨[], ?_⟩
    cases hload : j.loaded t with
    | error e =>
      rw [run_of_loaded_error hload]
      exact .refl _ t
    | ok c =>
      rw [run_of_isDry hdry hload]
      exact .refl _ t

end Job

/-! ### A run -/

/-- A job and the tree that it finds. -/
structure Step where
  before : Tree
  planned : PlannedJob

namespace Step

def outcome (s : Step) : Outcome := (s.planned.run Tree.access s.before).1

def after (s : Step) : Tree := (s.planned.run Tree.access s.before).2

def writes (s : Step) : List Write := s.planned.job.writes s.before s.outcome.result

end Step

theorem Outcome.isOk_iff {o : Outcome} : o.isOk ↔ ∃ g, o.result = .ok g := by
  rw [Outcome.isOk]
  cases o.result with
  | error e => simp [Except.isOk, Except.toBool]
  | ok g => simp [Except.isOk, Except.toBool]

/-- The steps of a run. Every job finds what the one before it has left. -/
def steps (t : Tree) : List PlannedJob → List Step
  | [] => []
  | p :: ps => ⟨t, p⟩ :: steps (p.run Tree.access t).2 ps

theorem runAll_cons (p : PlannedJob) (ps : List PlannedJob) (t : Tree) :
    runAll Tree.access (p :: ps) t =
      ((p.run Tree.access t).1 :: (runAll Tree.access ps (p.run Tree.access t).2).1,
        (runAll Tree.access ps (p.run Tree.access t).2).2) := by
  simp only [runAll, List.mapM_cons]
  rfl

theorem runAll_eq (ps : List PlannedJob) (t : Tree) :
    (runAll Tree.access ps t).1 = (steps t ps).map Step.outcome := by
  induction ps generalizing t with
  | nil => rfl
  | cons p ps ih =>
    rw [runAll_cons, ih, steps, List.map_cons, Step.outcome]

theorem mem_of_mem_steps {s : Step} {ps : List PlannedJob} {t : Tree} (h : s ∈ steps t ps) :
    s.planned ∈ ps := by
  induction ps generalizing t with
  | nil => cases h
  | cons p ps ih =>
    rcases List.mem_cons.mp h with rfl | h
    · exact List.mem_cons_self
    · exact List.mem_cons_of_mem p (ih h)

theorem Step.runs (s : Step) (hdry : s.planned.job.isDry = false) :
    s.planned.job.Runs s.before s.outcome.result s.after :=
  Job.runs hdry s.before

/-- The effects of the steps compose. -/
theorem runAll_rewrites {ps : List PlannedJob} (hdry : ∀ p ∈ ps, p.job.isDry = false) (t : Tree) :
    Rewrites (ps.flatMap (·.job.targets)) ((steps t ps).flatMap Step.writes) t
      (runAll Tree.access ps t).2 := by
  induction ps generalizing t with
  | nil => exact .refl _ t
  | cons p ps ih =>
    have hstep : Rewrites p.job.targets (Step.writes ⟨t, p⟩) t (Step.after ⟨t, p⟩) :=
      (Step.runs ⟨t, p⟩ (hdry p List.mem_cons_self)).rewrites
    have hrest := ih (fun q hq => hdry q (List.mem_cons_of_mem p hq)) (Step.after ⟨t, p⟩)
    rw [runAll_cons, steps, List.flatMap_cons, List.flatMap_cons]
    exact (hstep.mono (List.subset_append_left _ _)).trans (hrest.mono (List.subset_append_right _ _))

/-! ### A compilation -/

/-- The paths of the headers of groups of schemas, and of their copies. -/
def headerTargets (c : Config) (root : FilePath) (gs : List SchemaGroup) : List FilePath :=
  gs.flatMap fun g => g.schemas.flatMap fun base =>
    ((root.join c.output).join g.target).join ⟨base ++ ".h"⟩ ::
      if c.copiesBack then [(root.join g.source).join ⟨base ++ ".h"⟩] else []

theorem flatMap_targets (c : Config) (root : FilePath) (gs : List SchemaGroup) :
    (gs.flatMap (groupJobs c root false)).flatMap (·.job.targets) = headerTargets c root gs := by
  rw [List.flatMap_assoc, headerTargets]
  congr 1
  funext g
  rw [groupJobs, List.flatMap_map]
  congr 1
  funext base
  by_cases hcopies : c.copiesBack
  · simp [Job.targets, Job.headerPath, Job.copyPath, Job.fileName, jobFor, hcopies]
  · simp [Job.targets, Job.headerPath, Job.copyPath, Job.fileName, jobFor, hcopies]

theorem isDry_of_mem_groupJobs {c : Config} {root : FilePath} {gs : List SchemaGroup} {p : PlannedJob}
    (h : p ∈ gs.flatMap (groupJobs c root false)) : p.job.isDry = false := by
  obtain ⟨g, -, hp⟩ := List.mem_flatMap.mp h
  obtain ⟨base, -, rfl⟩ := List.mem_map.mp hp
  rfl

/-- The effect of the steps of a run that may write to `targets`. -/
structure Effect (targets : List FilePath) (run : List Step) (t t' : Tree) : Prop where
  /-- No entry is removed. Files stay files, and directories stay directories. -/
  kept : ∀ l e, t.find? l = some e → ∃ e', t'.find? l = some e' ∧ (e' = .directory ↔ e = .directory)
  /-- Elsewhere the files are what they were. -/
  outside : ∀ l, (∀ p ∈ targets, p.location ≠ l) → t'.content? l = t.content? l
  /-- A new entry is a file that a target leads to or a directory on the way to one. -/
  fresh : ∀ l e, t.find? l = none → t'.find? l = some e →
    ((∃ content, e = .file content) ∧ ∃ p ∈ targets, p.location = l) ∨
      e = .directory ∧ ∃ p ∈ targets, p.Passes l
  /-- Files hold what the last step that wrote them has written. -/
  last : ∀ l, t'.content? l = (lastWrite (run.flatMap Step.writes) l).or (t.content? l)
  /-- The outcomes tell which writes have succeeded. -/
  told : ∀ s ∈ run, s.planned.job.written s.outcome.result = s.planned.job.succeeding s.before

theorem effect_of_rewrites {targets : List FilePath} {run : List Step} {t t' : Tree}
    (h : Rewrites targets (run.flatMap Step.writes) t t')
    (hdry : ∀ s ∈ run, s.planned.job.isDry = false) : Effect targets run t t' where
  kept l e he := by
    cases e with
    | directory => exact ⟨.directory, h.kept l he, Iff.rfl⟩
    | file content =>
      obtain ⟨content', hcontent⟩ := h.exists_content? (Tree.content?_eq_some_iff.mpr he)
      exact ⟨.file content', Tree.content?_eq_some_iff.mp hcontent, by simp⟩
  outside l hl := h.content?_eq hl
  fresh l e hnone he := h.find?_eq_some he hnone
  last := h.content
  told s hs := (s.runs (hdry s hs)).written_eq

theorem compile_of_select_error {c : Config} {root : FilePath} {isDry : Bool} {component : Option String}
    {e : UnknownGroup} (h : c.select component = .error e) (t : Tree) :
    compile Tree.access c root isDry component t = (.error e, t) := by
  simp only [compile, plan, h, Except.map]
  rfl

theorem compile_of_select {c : Config} {root : FilePath} {isDry : Bool} {component : Option String}
    {gs : List SchemaGroup} (h : c.select component = .ok gs) (t : Tree) :
    compile Tree.access c root isDry component t =
      (.ok (runAll Tree.access (gs.flatMap (groupJobs c root isDry)) t).1,
        (runAll Tree.access (gs.flatMap (groupJobs c root isDry)) t).2) := by
  simp only [compile, plan, h, Except.map]
  rfl

/-- **Effect.** A compilation that is not dry changes nothing if the component is not known.
Else its report has the outcomes of its steps, one for each job of the selected groups, and
the tree that it leaves shows the effect of these steps and of nothing else. -/
theorem compile_effect (c : Config) (root : FilePath) (component : Option String) (t : Tree) :
    match c.select component with
    | .error e => compile Tree.access c root false component t = (.error e, t)
    | .ok gs => ∃ run t', run = steps t (gs.flatMap (groupJobs c root false)) ∧
        compile Tree.access c root false component t = (.ok (run.map Step.outcome), t') ∧
        Effect (headerTargets c root gs) run t t' := by
  cases hselect : c.select component with
  | error e => exact compile_of_select_error hselect t
  | ok gs =>
    refine ⟨_, (runAll Tree.access (gs.flatMap (groupJobs c root false)) t).2, rfl, ?_, ?_⟩
    · rw [← runAll_eq]
      exact compile_of_select hselect t
    · rw [← flatMap_targets]
      refine effect_of_rewrites (runAll_rewrites (fun p => isDry_of_mem_groupJobs) t) ?_
      exact fun s hs => isDry_of_mem_groupJobs (mem_of_mem_steps hs)

end OpHeaders.Compile
