import OpHeaders.Proofs.Compile.Effect
import OpHeaders.Proofs.Files.Keeping

/-! The schemas of a run stay what they are. Headers and their copies are written to paths that
end in `.h`; where the extension of the schemas is another one, none of them is written over a
schema, and no directory on the way to a schema is lost. So a schema that loads in a tree loads
with the same catalog in every tree that jobs leave. -/
namespace OpHeaders.Compile

open Files
open Schema (Catalog)

namespace Job

variable {j : Job} {t t' : Tree} {c : Catalog}

theorem headerEnd_of_mem_targets {p : FilePath} (h : p ∈ j.targets) : headerEnd <:+ p.text.toList := by
  have hname : headerEnd <:+ j.fileName.text.toList := by simp [fileName, headerEnd]
  obtain ⟨d, -, rfl⟩ := exists_of_mem_targets h
  exact hname.trans (FilePath.isSuffix_join d j.fileName)

theorem Runs.keepsSources {r : Except JobError Generated} (h : j.Runs t r t') : KeepsSources t t' :=
  .of_rewrites h.rewrites fun _ hp => headerEnd_of_mem_targets hp

/-- Whatever becomes of a job, the sources stay. -/
theorem keepsSources_run (j : Job) (t : Tree) : KeepsSources t (j.run Tree.access t).2 := by
  obtain ⟨ws, hrewrites⟩ := j.exists_rewrites_run t
  exact .of_rewrites hrewrites fun p hp => headerEnd_of_mem_targets hp

theorem loaded_eq_ok_iff : j.loaded t = .ok c ↔
    ∃ text, t.read j.schema = .ok text ∧ Catalog.ofText j.schema.text text = .ok c := by
  cases hread : t.read j.schema with
  | error f => simp [loaded_of_read_error hread]
  | ok text =>
    simp only [loaded_of_read_ok hread, Except.ok.injEq, exists_eq_left']
    cases Catalog.ofText j.schema.text text <;> simp [Except.mapError]

theorem loaded_of_keepsSources (hj : ¬headerEnd <:+ j.schema.text.toList) (hkeeps : KeepsSources t t')
    (h : j.loaded t = .ok c) : j.loaded t' = .ok c := by
  obtain ⟨text, hread, hcatalog⟩ := loaded_eq_ok_iff.mp h
  exact loaded_eq_ok_iff.mpr ⟨text, hkeeps.read_eq hj hread, hcatalog⟩

end Job

theorem PlannedJob.run_eq (p : PlannedJob) (t : Tree) : p.run Tree.access t =
    (⟨p.group, p.job.base, (p.job.run Tree.access t).1⟩, (p.job.run Tree.access t).2) := rfl

theorem keepsSources_runAll (ps : List PlannedJob) (t : Tree) :
    KeepsSources t (runAll Tree.access ps t).2 := by
  induction ps generalizing t with
  | nil => exact .refl t
  | cons p ps ih =>
    rw [runAll_cons, PlannedJob.run_eq]
    exact (p.job.keepsSources_run t).trans (ih _)

/-! ### The extension of schemas -/

variable {c : Config}

/-- Behind the dot of an extension, `.h` is all of it or its end. -/
theorem headerEnd_isSuffix_cons {s : List Char} (h : headerEnd <:+ '.' :: s) :
    s = ['h'] ∨ headerEnd <:+ s := by
  rcases List.suffix_cons_iff.mp h with heq | h
  · exact .inl (List.cons.inj heq).2.symm
  · exact .inr h

theorem not_headerEnd_jobFor (hne : c.extension ≠ "h") (hend : ¬headerEnd <:+ c.extension.toList)
    (root : FilePath) (isDry : Bool) (g : SchemaGroup) (base : String) :
    ¬headerEnd <:+ (jobFor c root isDry g base).schema.text.toList := by
  intro h
  have hdot : '.' :: c.extension.toList <:+ (jobFor c root isDry g base).schema.text.toList := by
    refine List.IsSuffix.trans ?_ (FilePath.isSuffix_join _ _)
    exact ⟨base.toList, by simp⟩
  by_cases hempty : c.extension.toList = []
  · -- the path would end in a dot as well
    rw [hempty] at hdot
    exact absurd (List.suffix_of_suffix_length_le hdot h (by decide)) (by decide)
  have hbehind : headerEnd <:+ '.' :: c.extension.toList := by
    have hpos := List.length_pos_iff.mpr hempty
    apply List.suffix_of_suffix_length_le h hdot
    simp only [headerEnd, List.length_cons, List.length_nil]
    omega
  rcases headerEnd_isSuffix_cons hbehind with heq | h
  · exact hne (String.toList_inj.mp heq)
  · exact hend h

theorem not_headerEnd_of_mem_groupJobs {root : FilePath} {isDry : Bool} {gs : List SchemaGroup}
    (hne : c.extension ≠ "h") (hend : ¬headerEnd <:+ c.extension.toList) :
    ∀ p ∈ gs.flatMap (groupJobs c root isDry), ¬headerEnd <:+ p.job.schema.text.toList := by
  intro p hp
  obtain ⟨g, -, hp⟩ := List.mem_flatMap.mp hp
  obtain ⟨base, -, rfl⟩ := List.mem_map.mp hp
  exact not_headerEnd_jobFor hne hend root isDry g base

end OpHeaders.Compile
