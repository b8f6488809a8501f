import OpHeaders.Proofs.Compile.Order
import OpHeaders.Proofs.Compile.Sources
import OpHeaders.Proofs.Files.Atomicity
import OpHeaders.Proofs.Schema.Acceptance

/-! What the result of a job tells of the files. A schema that is missing and one that is refused are told
apart, and neither costs a file. A write that fails changes nothing, so what a failed job has changed is the
header at most, and only if the copy is what failed. A job that succeeds leaves the same text at both paths. -/
namespace OpHeaders.Compile

open Files
open Schema (Catalog Malformed)

/-- The files of a tree, with a record of the paths at which writes were attempted. -/
def watched : Access (StateM (Tree × List FilePath)) where
  read p := fun s => (s.1.read p, s)
  write p text := fun s => ((s.1.write p text.toUTF8).1, (s.1.write p text.toUTF8).2, s.2 ++ [p])

/-- The ways in which a schema that is not missing is refused. -/
inductive IsRefused (t : Tree) (schema : FilePath) : Malformed → Prop where
  | unreachable {f : Fault} : t.locate schema = .error f → f ≠ .notFound →
    IsRefused t schema ⟨.document schema.text, .unreadable f⟩
  | directory {l : Location} : t.locate schema = .ok l → t.IsDirectory l →
    IsRefused t schema ⟨.document schema.text, .unreadable .isDirectory⟩
  | notText {l : Location} {content : ByteArray} : t.locate schema = .ok l → t.content? l = some content →
    String.fromUTF8? content = none → IsRefused t schema ⟨.document schema.text, .unreadable .notText⟩
  | notYaml {text : String} : t.read schema = .ok text → Yaml.Value.ofText? text = none →
    IsRefused t schema ⟨.document schema.text, .notYaml text⟩
  | notSchema {text : String} {v : Yaml.Value} {e : Malformed} : t.read schema = .ok text →
    Yaml.Value.ofText? text = some v → Catalog.ofValue schema.text v = .error e → IsRefused t schema e

namespace Job

variable {j : Job} {t t' : Tree} {r : Except JobError Generated} {c : Catalog} {p : FilePath} {l : Location}

/-! ### Schemas that do not load -/

theorem loaded_eq_notFound_iff :
    j.loaded t = .error (.notFound p) ↔ p = j.schema ∧ t.locate j.schema = .error .notFound := by
  cases hread : t.read j.schema with
  | ok text =>
    obtain ⟨l, -, hlocate, -⟩ := Tree.read_eq_ok_iff.mp hread
    rw [loaded_of_read_ok hread, hlocate]
    cases Catalog.ofText j.schema.text text <;> simp [Except.mapError]
  | error f =>
    have hmissing : f = .notFound ↔ t.locate j.schema = .error .notFound := by
      have hiff := Tree.read_eq_error_iff (t := t) (p := j.schema) (f := .notFound)
      simp only [hread, reduceCtorEq, and_false, exists_false, or_false] at hiff
      rw [← hiff, Except.error.injEq]
    rw [loaded_of_read_error hread, ← hmissing]
    split_ifs with hf
    · simp [hf, eq_comm]
    · simp [hf]

theorem loaded_eq_malformed_iff_read {e : Malformed} : j.loaded t = .error (.malformed e) ↔
    (∃ f, t.read j.schema = .error f ∧ f ≠ .notFound ∧ e = ⟨.document j.schema.text, .unreadable f⟩) ∨
      ∃ text, t.read j.schema = .ok text ∧ Catalog.ofText j.schema.text text = .error e := by
  cases hread : t.read j.schema with
  | error f =>
    rw [loaded_of_read_error hread]
    split_ifs with hf <;> simp [hf, eq_comm]
  | ok text =>
    simp only [loaded_of_read_ok hread, reduceCtorEq, false_and, exists_false, false_or, Except.ok.injEq,
      exists_eq_left']
    cases Catalog.ofText j.schema.text text <;> simp [Except.mapError]

theorem loaded_eq_malformed_iff {e : Malformed} :
    j.loaded t = .error (.malformed e) ↔ IsRefused t j.schema e := by
  rw [loaded_eq_malformed_iff_read]
  constructor
  · rintro (⟨f, hread, hf, rfl⟩ | ⟨text, hread, htext⟩)
    · rcases Tree.read_eq_error_iff.mp hread with hlocate | ⟨l, hlocate, hdir, rfl⟩ |
        ⟨l, content, hlocate, hcontent, htext, rfl⟩
      · exact .unreachable hlocate hf
      · exact .directory hlocate hdir
      · exact .notText hlocate hcontent htext
    · rcases Catalog.ofText_eq_error_iff.mp htext with ⟨hv, rfl⟩ | ⟨v, hv, hvalue⟩
      · exact .notYaml hread hv
      · exact .notSchema hread hv hvalue
  · intro h
    cases h with
    | unreachable hlocate hf =>
      exact .inl ⟨_, Tree.read_eq_error_iff.mpr (.inl hlocate), hf, rfl⟩
    | directory hlocate hdir =>
      exact .inl ⟨_, Tree.read_eq_error_iff.mpr (.inr (.inl ⟨_, hlocate, hdir, rfl⟩)), by rintro ⟨⟩, rfl⟩
    | notText hlocate hcontent htext =>
      exact .inl ⟨_, Tree.read_eq_error_iff.mpr (.inr (.inr ⟨_, _, hlocate, hcontent, htext, rfl⟩)),
        by rintro ⟨⟩, rfl⟩
    | notYaml hread hv => exact .inr ⟨_, hread, Catalog.ofText_eq_error_iff.mpr (.inl ⟨hv, rfl⟩)⟩
    | notSchema hread hv hvalue =>
      exact .inr ⟨_, hread, Catalog.ofText_eq_error_iff.mpr (.inr ⟨_, hv, hvalue⟩)⟩

/-! ### Files after a job -/

theorem lastWrite_writes (hload : j.loaded t = .ok c) (r : Except JobError Generated) (l : Location) :
    lastWrite (j.writes t r) l = if ∃ p ∈ j.written r, p.location = l then some (j.content c) else none := by
  simp only [writes, hload]
  induction j.written r using List.reverseRecOn with
  | nil => simp [lastWrite]
  | append_singleton ps p ih =>
    rw [List.map_append, lastWrite_append, ih, List.map_singleton, lastWrite_singleton]
    by_cases hp : p.location = l
    · simp [hp]
    · simp [hp, Ne.symm hp]

/-- A file that was not written is what it was. -/
theorem Runs.content?_eq (h : j.Runs t r t') (hl : ∀ p ∈ j.written r, p.location ≠ l) :
    t'.content? l = t.content? l := by
  cases hload : j.loaded t with
  | error e =>
    have hwrites : j.writes t r = [] := by simp only [writes, hload]
    rw [h.rewrites.content l, hwrites]
    rfl
  | ok c =>
    rw [h.rewrites.content l, lastWrite_writes hload, if_neg (by simpa using hl), Option.none_or]

theorem Runs.content?_of_mem_written (h : j.Runs t r t') (hload : j.loaded t = .ok c) (hp : p ∈ j.written r) :
    t'.content? p.location = some (j.content c) := by
  rw [h.rewrites.content p.location, lastWrite_writes hload, if_pos ⟨p, hp, rfl⟩, Option.some_or]

theorem Runs.locate_eq (h : j.Runs t r t') (hp : p ∈ j.written r) : t'.locate p = .ok p.location := by
  cases h with
  | unloaded hload => cases hp
  | unwritten hload hwrite => cases hp
  | uncopied hload hwrite hcopy hwrite' =>
    rw [List.mem_singleton.mp hp]
    exact (Tree.extends_of_write hwrite').locate_eq (Tree.locate_of_write hwrite)
  | written hload hwrite hcopy =>
    simp only [Job.written, generated, hcopy, Option.toList_none, List.mem_singleton] at hp
    rw [hp]
    exact Tree.locate_of_write hwrite
  | copied hload hwrite hcopy hwrite' =>
    simp only [Job.written, generated, hcopy, Option.toList_some, List.mem_cons, List.not_mem_nil, or_false] at hp
    rcases hp with rfl | rfl
    · exact (Tree.extends_of_write hwrite').locate_eq (Tree.locate_of_write hwrite)
    · exact Tree.locate_of_write hwrite'

/-- A file that was written has the text of the header, whatever was written after it. -/
theorem Runs.read_eq (h : j.Runs t r t') (hload : j.loaded t = .ok c) (hp : p ∈ j.written r) :
    t'.read p = .ok (j.headerText c) :=
  Tree.read_eq_of_content? (h.locate_eq hp) (h.content?_of_mem_written hload hp)

theorem Runs.of_unwritten {base : String} {f : WriteFault} (h : j.Runs t (.error (.writing base f)) t') :
    (∃ c, j.loaded t = .ok c) ∧ ∀ l, t'.content? l = t.content? l := by
  refine ⟨?_, fun l => h.content?_eq fun p hp => by cases hp⟩
  cases h with
  | unwritten hload hwrite => exact ⟨_, hload⟩

theorem Runs.of_uncopied {copy : FilePath} {f : WriteFault} (h : j.Runs t (.error (.copying copy f)) t') :
    j.copyPath = some copy ∧ (∃ c, j.loaded t = .ok c ∧ t'.read j.headerPath = .ok (j.headerText c)) ∧
      ∀ l, l ≠ j.headerPath.location → t'.content? l = t.content? l := by
  obtain ⟨hcopy, c, hload⟩ : j.copyPath = some copy ∧ ∃ c, j.loaded t = .ok c := by
    cases h with
    | uncopied hload hwrite hcopy hwrite' => exact ⟨hcopy, _, hload⟩
  refine ⟨hcopy, ⟨c, hload, h.read_eq hload (List.mem_singleton_self _)⟩, fun l hl => ?_⟩
  exact h.content?_eq fun p hp => List.mem_singleton.mp hp ▸ hl.symm

theorem Runs.of_made {g : Generated} (h : j.Runs t (.ok g) t') : ∃ c, j.loaded t = .ok c ∧
    g = j.generated c ∧ ∀ p ∈ g.header :: g.copy.toList, t'.read p = .ok (j.headerText c) := by
  obtain ⟨c, hload, rfl⟩ : ∃ c, j.loaded t = .ok c ∧ g = j.generated c := by
    cases h with
    | written hload hwrite hcopy => exact ⟨_, hload, rfl⟩
    | copied hload hwrite hcopy hwrite' => exact ⟨_, hload, rfl⟩
  exact ⟨c, hload, rfl, fun p hp => h.read_eq hload hp⟩

/-! ### Failing -/

/-- What a job that failed leaves of the files. All of them are what they were, unless the copy is what
failed: then the header is complete already. -/
structure SparesFiles (j : Job) (t : Tree) (e : JobError) (t' : Tree) : Prop where
  others : ∀ l, l ≠ j.headerPath.location → t'.content? l = t.content? l
  header : (∀ copy f, e ≠ .copying copy f) →
    t'.content? j.headerPath.location = t.content? j.headerPath.location
  complete : ∀ copy f, e = .copying copy f →
    ∃ c, j.loaded t = .ok c ∧ t'.read j.headerPath = .ok (j.headerText c)

/-- A job that fails spares all files but its own header, and that one is complete. -/
theorem sparesFiles_of_run_error {e : JobError} (h : j.run Tree.access t = (.error e, t')) :
    j.SparesFiles t e t' := by
  have hruns := runs_of_run_error h
  cases e with
  | loading schema e =>
    obtain rfl : t' = t := by
      cases hruns with
      | unloaded hload => rfl
    exact ⟨fun _ _ => rfl, fun _ => rfl, by rintro _ _ ⟨⟩⟩
  | writing base f =>
    obtain ⟨-, hfiles⟩ := hruns.of_unwritten
    exact ⟨fun l _ => hfiles l, fun _ => hfiles _, by rintro _ _ ⟨⟩⟩
  | copying copy f =>
    obtain ⟨-, hheader, hothers⟩ := hruns.of_uncopied
    exact ⟨hothers, fun hne => absurd rfl (hne copy f), fun _ _ _ => hheader⟩

/-- A job with its schema in the way of the copy. -/
def obstructed : Job where
  schema := ⟨"n.yaml"⟩
  base := "n"
  guardStart := "p_"
  output := ⟨"out"⟩
  copyTo := some ⟨"n.yaml"⟩

/-- A tree with this schema, and a header that was made earlier. -/
def earlier : Tree := ((bare ⟨"n.yaml"⟩).write ⟨"out/n.h"⟩ "old".toUTF8).2

theorem run_obstructed : ∃ copy f t', obstructed.run Tree.access earlier = (.error (.copying copy f), t') := by
  have hfails : (obstructed.run Tree.access earlier).1.isOk = false := by decide +kernel
  have hwritten : obstructed.written (obstructed.run Tree.access earlier).1 = [obstructed.headerPath] := by
    decide +kernel
  rcases hrun : obstructed.run Tree.access earlier with ⟨e | g, t'⟩
  · rw [hrun] at hwritten
    cases e with
    | loading schema e => cases hwritten
    | writing base f => cases hwritten
    | copying copy f => exact ⟨copy, f, t', rfl⟩
  · rw [hrun] at hfails
    cases hfails

theorem sparesFiles_obstructed : ∃ copy f t', obstructed.run Tree.access earlier = (.error (.copying copy f), t') ∧
    obstructed.SparesFiles earlier (.copying copy f) t' := by
  obtain ⟨copy, f, t', hrun⟩ := run_obstructed
  exact ⟨copy, f, t', hrun, sparesFiles_of_run_error hrun⟩

theorem head?_headerText (j : Job) (c : Catalog) : (j.headerText c).toList.head? = some '/' := by
  rw [headerText, Header.headerText, String.toList_ofList]
  rfl

/-- Not every job that fails leaves the earlier header as it was. -/
theorem not_sparesHeader_of_run_error : ¬∀ (j : Job) (t t' : Tree) (e : JobError),
    j.run Tree.access t = (.error e, t') → ∀ l, t'.content? l = t.content? l := by
  intro h
  obtain ⟨copy, f, t', hrun⟩ := run_obstructed
  have hearlier : earlier.content? obstructed.headerPath.location = some "old".toUTF8 := by decide +kernel
  have hruns := runs_of_run_error hrun
  cases hruns with
  | uncopied hload hwrite hcopy hwrite' =>
    have hheader := (Runs.uncopied hload hwrite hcopy hwrite').content?_of_mem_written hload
      (List.mem_singleton_self obstructed.headerPath)
    rw [h obstructed earlier t' _ hrun, hearlier] at hheader
    have htext : "old" = obstructed.headerText _ := String.toByteArray_inj.mp (Option.some.inj hheader)
    have hhead : "old".toList.head? = some '/' := by
      rw [htext]
      exact head?_headerText obstructed _
    exact absurd hhead (by decide)

/-! ### Telling -/

/-- The paths at which a job has attempted to write, going by its result. -/
def attempted (j : Job) : Except JobError Generated → List FilePath
  | .ok _ => if j.isDry then [] else j.targets
  | .error (.loading _ _) => []
  | .error (.writing _ _) => [j.headerPath]
  | .error (.copying _ _) => j.targets

theorem loadCatalog_watched (j : Job) (t : Tree) (ps : List FilePath) :
    loadCatalog watched j.schema (t, ps) = (j.loaded t, t, ps) := by
  cases hread : t.read j.schema with
  | error f =>
    simp only [loaded_of_read_error hread, loadCatalog, watched, bind, StateT.bind, hread]
    cases f <;> rfl
  | ok text =>
    simp only [loaded_of_read_ok hread, loadCatalog, watched, bind, StateT.bind, hread]
    cases Catalog.ofText j.schema.text text <;> rfl

theorem writeCopy_watched (j : Job) (c : Catalog) (t : Tree) (ps : List FilePath) :
    j.writeCopy watched c (t, ps) =
      ((j.writeCopy Tree.access c t).1, (j.writeCopy Tree.access c t).2, ps ++ j.copyPath.toList) := by
  cases hcopy : j.copyPath with
  | none =>
    rw [writeCopy_of_none hcopy, writeCopy, hcopy, Option.toList_none, List.append_nil]
    rfl
  | some copy =>
    rcases hwrite : t.write copy (j.content c) with ⟨f | ⟨⟩, t₁⟩
    · rw [writeCopy_of_error hcopy hwrite]
      rw [content] at hwrite
      simp only [writeCopy, hcopy, watched, bind, StateT.bind, hwrite]
      rfl
    · rw [writeCopy_of_ok hcopy hwrite]
      rw [content] at hwrite
      simp only [writeCopy, hcopy, watched, bind, StateT.bind, hwrite]
      rfl

theorem writeHeader_watched (h : t.write j.headerPath (j.content c) = (.ok (), t')) (ps : List FilePath) :
    j.writeHeader watched c (t, ps) = j.writeCopy watched c (t', ps ++ [j.headerPath]) := by
  rw [content] at h
  simp only [writeHeader, watched, bind, StateT.bind, h]

/-- Once the header is written, nothing but the copy decides on the result. -/
theorem attempted_writeCopy (hdry : j.isDry = false) (c : Catalog) (t : Tree) :
    j.attempted (j.writeCopy Tree.access c t).1 = j.targets := by
  cases hcopy : j.copyPath with
  | none => simp only [writeCopy_of_none hcopy, attempted, hdry, Bool.false_eq_true, if_false]
  | some copy =>
    rcases hwrite : t.write copy (j.content c) with ⟨f | ⟨⟩, t₁⟩
    · rw [writeCopy_of_error hcopy hwrite, attempted]
    · simp only [writeCopy_of_ok hcopy hwrite, attempted, hdry, Bool.false_eq_true, if_false]

/-- Watching does not change what a job does. -/
theorem run_watched (j : Job) (t : Tree) (ps : List FilePath) :
    j.run watched (t, ps) = ((j.run Tree.access t).1, (j.run Tree.access t).2,
      ps ++ j.attempted (j.run Tree.access t).1) := by
  cases hload : j.loaded t with
  | error e =>
    rw [run_of_loaded_error hload]
    simp only [run, bind, StateT.bind, loadCatalog_watched, hload, attempted, List.append_nil]
    rfl
  | ok c =>
    cases hdry : j.isDry with
    | true =>
      rw [run_of_isDry hdry hload]
      simp only [run, bind, StateT.bind, loadCatalog_watched, hload, hdry, attempted, if_true, List.append_nil]
      rfl
    | false =>
      rw [run_of_loaded_ok hdry hload]
      simp only [run, bind, StateT.bind, loadCatalog_watched, hload, hdry, Bool.false_eq_true, if_false]
      rcases hwrite : t.write j.headerPath (j.content c) with ⟨f | ⟨⟩, t₁⟩
      · rw [writeHeader_of_error hwrite, attempted]
        rw [content] at hwrite
        simp only [writeHeader, watched, bind, StateT.bind, hwrite]
        rfl
      · rw [writeHeader_of_ok hwrite, writeHeader_watched hwrite, writeCopy_watched, attempted_writeCopy hdry,
          List.append_assoc]
        rfl

/-- What a result tells of the tree before the job, the tree after it and the writes attempted. -/
structure Told (j : Job) (t : Tree) (r : Except JobError Generated) (t' : Tree) (attempts : List FilePath) :
    Prop where
  missing : ∀ p q, r = .error (.loading p (.notFound q)) ↔
    p = j.schema ∧ q = j.schema ∧ t.locate j.schema = .error .notFound
  refused : ∀ p e, r = .error (.loading p (.malformed e)) ↔ p = j.schema ∧ IsRefused t j.schema e
  unloaded : ∀ p e, r = .error (.loading p e) → t' = t ∧ attempts = []
  unwritten : ∀ base f, r = .error (.writing base f) → j.isDry = false ∧ (∃ c, j.loaded t = .ok c) ∧
    (∀ l, t'.content? l = t.content? l) ∧ attempts = [j.headerPath]
  uncopied : ∀ copy f, r = .error (.copying copy f) → j.isDry = false ∧ j.copyPath = some copy ∧
    (∃ c, j.loaded t = .ok c ∧ t'.read j.headerPath = .ok (j.headerText c)) ∧
    (∀ l, l ≠ j.headerPath.location → t'.content? l = t.content? l) ∧ attempts = [j.headerPath, copy]
  made : ∀ g, r = .ok g → ∃ text c, t.read j.schema = .ok text ∧ Catalog.ofText j.schema.text text = .ok c ∧
    g.header = j.headerPath ∧ g.copy = j.copyPath ∧ g.category = c.category ∧
    g.operators = c.operators.length ∧ g.bytes = (j.headerText c).utf8ByteSize ∧
    if j.isDry then t' = t ∧ attempts = []
    else attempts = g.header :: g.copy.toList ∧ ∀ p ∈ attempts, t'.read p = .ok (j.headerText c)

theorem run_eq_loading_iff {e : LoadError} :
    (j.run Tree.access t).1 = .error (.loading p e) ↔ p = j.schema ∧ j.loaded t = .error e := by
  constructor
  · rcases hrun : j.run Tree.access t with ⟨r, t'⟩
    rintro rfl
    cases runs_of_run_error hrun with
    | unloaded hload => exact ⟨rfl, hload⟩
  · rintro ⟨rfl, hload⟩
    rw [run_of_loaded_error hload]

theorem isDry_of_run_error {e : JobError} (h : (j.run Tree.access t).1 = .error e)
    (hload : j.loaded t = .ok c) : j.isDry = false := by
  cases hdry : j.isDry with
  | false => rfl
  | true =>
    rw [run_of_isDry hdry hload] at h
    cases h

theorem made_of_run_ok {g : Generated} (h : j.run Tree.access t = (.ok g, t')) : ∃ c, j.loaded t = .ok c ∧
    g = j.generated c ∧ if j.isDry then t' = t
      else ∀ p ∈ g.header :: g.copy.toList, t'.read p = .ok (j.headerText c) := by
  cases hdry : j.isDry with
  | false =>
    have hruns := runs hdry t
    rw [h] at hruns
    exact hruns.of_made
  | true =>
    cases hload : j.loaded t with
    | error e =>
      rw [run_of_loaded_error hload] at h
      cases h
    | ok c =>
      rw [run_of_isDry hdry hload] at h
      cases h
      exact ⟨c, rfl, rfl, rfl⟩

/-- The result of a job tells what has happened, and so does the same job if its writes are watched. -/
theorem run_told (j : Job) (t : Tree) : ∃ r t' attempts, j.run Tree.access t = (r, t') ∧
    j.run watched (t, []) = (r, t', attempts) ∧ j.Told t r t' attempts := by
  obtain ⟨r, t', hrun⟩ : ∃ r t', j.run Tree.access t = (r, t') := ⟨_, _, rfl⟩
  have hresult : (j.run Tree.access t).1 = r := by rw [hrun]
  have hwatched : j.run watched (t, []) = (r, t', j.attempted r) := by
    rw [run_watched, hrun, List.nil_append]
  refine ⟨r, t', _, hrun, hwatched, ?_, ?_, ?_, ?_, ?_, ?_⟩
  · intro p q
    rw [← hresult, run_eq_loading_iff, loaded_eq_notFound_iff]
  · intro p e
    rw [← hresult, run_eq_loading_iff, loaded_eq_malformed_iff]
  · rintro p e rfl
    cases runs_of_run_error hrun with
    | unloaded hload => exact ⟨rfl, rfl⟩
  · rintro base f rfl
    obtain ⟨⟨c, hload⟩, hfiles⟩ := (runs_of_run_error hrun).of_unwritten
    exact ⟨isDry_of_run_error hresult hload, ⟨c, hload⟩, hfiles, rfl⟩
  · rintro copy f rfl
    obtain ⟨hcopy, ⟨c, hload, hheader⟩, hothers⟩ := (runs_of_run_error hrun).of_uncopied
    refine ⟨isDry_of_run_error hresult hload, hcopy, ⟨c, hload, hheader⟩, hothers, ?_⟩
    rw [attempted, targets, hcopy, Option.toList_some]
  · rintro g rfl
    obtain ⟨c, hload, rfl, hmade⟩ := made_of_run_ok hrun
    obtain ⟨text, hread, htext⟩ := loaded_eq_ok_iff.mp hload
    refine ⟨text, c, hread, htext, by rw [generated], by rw [generated], by rw [generated], by rw [generated],
      by rw [generated], ?_⟩
    rw [attempted]
    cases hdry : j.isDry with
    | true =>
      rw [hdry] at hmade
      exact ⟨hmade, rfl⟩
    | false =>
      rw [hdry] at hmade
      exact ⟨rfl, hmade⟩

end Job

end OpHeaders.Compile
