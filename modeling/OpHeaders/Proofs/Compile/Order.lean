import OpHeaders.Proofs.Compile.Effect
import OpHeaders.Proofs.Files.Independence

/-! Jobs whose files keep apart. They may share directories, which either of them makes if they
are missing, and each may fail. In both orders they leave the same tree, and the results are
those of each job alone. Only the reason why a schema cannot be read may depend on the order,
if its path has a name that is too long: that shows as soon as the directory in front exists. -/
namespace OpHeaders.Compile

open Files
open Schema (Catalog)

namespace Job

variable {j k : Job} {t t' : Tree}

/-! ### Jobs that keep apart -/

/-- All paths are plain, and the header is named by a single piece. -/
structure IsPlain (j : Job) : Prop where
  schema : j.schema.IsPlain
  output : j.output.IsPlain
  copyTo : ∀ d ∈ j.copyTo, d.IsPlain
  base : '/' ∉ j.base.toList

instance (j : Job) : Decidable j.IsPlain :=
  decidable_of_iff (j.schema.IsPlain ∧ j.output.IsPlain ∧ (∀ d ∈ j.copyTo, d.IsPlain) ∧ '/' ∉ j.base.toList)
    ⟨fun ⟨hs, ho, hc, hb⟩ => ⟨hs, ho, hc, hb⟩, fun h => ⟨h.schema, h.output, h.copyTo, h.base⟩⟩

def paths (j : Job) : List FilePath := j.schema :: (j.directories ++ j.targets)

/-- No file that the first job writes is at or above a path of the second one, and its schema is
not at or above a directory of the second one. -/
structure Avoids (j k : Job) : Prop where
  targets : ∀ p ∈ j.targets, ∀ q ∈ k.paths, ¬p.Covers q
  schema : ∀ d ∈ k.directories, ¬j.schema.Covers d

instance (j k : Job) : Decidable (j.Avoids k) :=
  decidable_of_iff ((∀ p ∈ j.targets, ∀ q ∈ k.paths, ¬p.Covers q) ∧ ∀ d ∈ k.directories, ¬j.schema.Covers d)
    ⟨fun ⟨ht, hs⟩ => ⟨ht, hs⟩, fun h => ⟨h.targets, h.schema⟩⟩

theorem isPlainName_fileName {base : String} (h : '/' ∉ base.toList) : FilePath.IsPlainName (base ++ ".h") := by
  have hlast : (base ++ ".h").toList.getLast? = some 'h' := by simp
  have hne : ∀ s : String, s.toList.getLast? ≠ some 'h' → base ++ ".h" ≠ s := by
    rintro _ hs rfl
    exact hs hlast
  exact ⟨hne _ (by decide), hne _ (by decide), hne _ (by decide), by simpa using h⟩

namespace IsPlain

theorem directories (h : j.IsPlain) : ∀ d ∈ j.directories, d.IsPlain := by
  intro d hd
  rcases List.mem_cons.1 hd with rfl | hd
  · exact h.output
  · exact h.copyTo d (Option.mem_toList.1 hd)

theorem isFile (h : j.IsPlain) {p : FilePath} (hp : p ∈ j.targets) : p.IsFile := by
  obtain ⟨d, hd, rfl⟩ := exists_of_mem_targets hp
  exact ⟨d, _, h.directories d hd, isPlainName_fileName h.base, rfl⟩

/-- The files lie in the directories of the job. -/
theorem exists_dropLast_eq (h : j.IsPlain) {p : FilePath} (hp : p ∈ j.targets) :
    ∃ d ∈ j.directories, p.names.dropLast = d.names := by
  obtain ⟨d, hd, rfl⟩ := exists_of_mem_targets hp
  have hnames := FilePath.names_join (h.directories d hd) (isPlainName_fileName h.base)
  exact ⟨d, hd, by rw [fileName, hnames, List.dropLast_concat]⟩

end IsPlain

namespace Avoids

theorem not_covers_schema (h : j.Avoids k) {p : FilePath} (hp : p ∈ j.targets) : ¬p.Covers k.schema :=
  h.targets p hp k.schema List.mem_cons_self

theorem not_covers_target (h : j.Avoids k) {p q : FilePath} (hp : p ∈ j.targets) (hq : q ∈ k.targets) :
    ¬p.Covers q :=
  h.targets p hp q (List.mem_cons_of_mem _ (List.mem_append_right _ hq))

end Avoids

/-! ### Actions of a job -/

section Commutes

variable {β : Type} {g : StateM Tree β}

theorem commutes_loadCatalog (h : Commutes (Tree.access.read j.schema) g) :
    Commutes (loadCatalog Tree.access j.schema) g := by
  unfold loadCatalog
  refine h.bind fun r => ?_
  cases r with
  | ok text =>
    dsimp only
    cases Catalog.ofText j.schema.text text <;> exact .pure _ g
  | error f => cases f <;> exact .pure _ g

theorem commutes_writeCopy (h : ∀ p ∈ j.targets, ∀ s, Commutes (Tree.access.write p s) g) (c : Catalog) :
    Commutes (j.writeCopy Tree.access c) g := by
  unfold writeCopy
  cases hcopy : j.copyPath with
  | none => exact .pure _ g
  | some copy =>
    refine (h copy (mem_targets_of_copyPath hcopy) _).bind fun r => ?_
    cases r <;> exact .pure _ g

theorem commutes_writeHeader (h : ∀ p ∈ j.targets, ∀ s, Commutes (Tree.access.write p s) g) (c : Catalog) :
    Commutes (j.writeHeader Tree.access c) g := by
  unfold writeHeader
  refine (h j.headerPath j.headerPath_mem_targets _).bind fun r => ?_
  cases r with
  | ok => exact commutes_writeCopy h c
  | error e => exact .pure _ g

/-- A job commutes with what its reads and writes commute with. -/
theorem commutes_run (hread : Commutes (Tree.access.read j.schema) g)
    (hwrite : ∀ p ∈ j.targets, ∀ s, Commutes (Tree.access.write p s) g) : Commutes (j.run Tree.access) g := by
  unfold run
  refine (commutes_loadCatalog hread).bind fun r => ?_
  cases r with
  | error e => exact .pure _ g
  | ok c =>
    dsimp only
    split_ifs
    · exact .pure _ g
    · exact commutes_writeHeader hwrite c

end Commutes

theorem commutes_read (hj : j.IsPlain) (hk : k.IsPlain) (hjk : j.Avoids k) (hkj : k.Avoids j)
    (hshort : ∀ n ∈ j.schema.names, FilePath.isTooLong n = false) :
    ∀ q ∈ k.targets, ∀ s, Commutes (Tree.access.read j.schema) (Tree.access.write q s) := by
  intro q hq s
  obtain ⟨d, hd, hnames⟩ := hk.exists_dropLast_eq hq
  exact Tree.commutes_read_write hj.schema hshort (hk.isFile hq).isPlain (hkj.not_covers_schema hq)
    (hnames ▸ hjk.schema d hd) s

theorem commutes_of_avoids (hj : j.IsPlain) (hk : k.IsPlain) (hjk : j.Avoids k) (hkj : k.Avoids j)
    (hjshort : ∀ n ∈ j.schema.names, FilePath.isTooLong n = false)
    (hkshort : ∀ n ∈ k.schema.names, FilePath.isTooLong n = false) :
    Commutes (j.run Tree.access) (k.run Tree.access) := by
  refine commutes_run ?_ fun p hp s => ?_
  · exact (commutes_run (Tree.commutes_read_read _ _)
      fun q hq s => (commutes_read hj hk hjk hkj hjshort q hq s).symm).symm
  · refine (commutes_run (commutes_read hk hj hkj hjk hkshort p hp s) fun q hq u => ?_).symm
    exact (Tree.commutes_write_write (hj.isFile hp) (hk.isFile hq) (hjk.not_covers_target hp hq)
      (hkj.not_covers_target hq hp) s u).symm

/-! ### Names that are too long -/

/-- The schema is missing, or has a name that is too long. -/
inductive IsUnread (j : Job) : Except JobError Generated → Prop
  | notFound : IsUnread j (.error (.loading j.schema (.notFound j.schema)))
  | nameTooLong : IsUnread j
    (.error (.loading j.schema (.malformed ⟨.document j.schema.text, .unreadable .nameTooLong⟩)))

/-- The results are the same, or say in two ways that a name of the schema is too long. -/
def Alike (j : Job) (r r' : Except JobError Generated) : Prop :=
  r = r' ∨ (∃ n ∈ j.schema.names, FilePath.isTooLong n = true) ∧ j.IsUnread r ∧ j.IsUnread r'

theorem run_of_read_error {f : Fault} (h : t.read j.schema = .error f) :
    j.run Tree.access t = (.error (.loading j.schema (if f = .notFound then .notFound j.schema
      else .malformed ⟨.document j.schema.text, .unreadable f⟩)), t) :=
  run_of_loaded_error (loaded_of_read_error h)

theorem isUnread_of_read (h : t.read j.schema = .error .notFound ∨ t.read j.schema = .error .nameTooLong) :
    j.IsUnread (j.run Tree.access t).1 := by
  rcases h with h | h
  · rw [run_of_read_error h]
    exact .notFound
  · rw [run_of_read_error h]
    exact .nameTooLong

/-- Such a job leaves the tree as it is. Where the same files are in the way, its results are
alike. -/
theorem run_of_isTooLong (hj : j.IsPlain) (hlong : ∃ n ∈ j.schema.names, FilePath.isTooLong n = true)
    (hway : t'.isBarred [] j.schema.names = t.isBarred [] j.schema.names) :
    (j.run Tree.access t).2 = t ∧ j.Alike (j.run Tree.access t).1 (j.run Tree.access t').1 := by
  rcases Tree.read_of_isTooLong hj.schema hlong hway with ⟨f, hf, hf'⟩ | ⟨h, h'⟩
  · rw [run_of_read_error hf, run_of_read_error hf']
    exact ⟨rfl, .inl rfl⟩
  · refine ⟨?_, .inr ⟨hlong, isUnread_of_read h, isUnread_of_read h'⟩⟩
    rcases h with h | h <;> rw [run_of_read_error h]

/-- Another job puts no file in the way of the schema. -/
theorem isBarred_run (hk : k.IsPlain) (hkj : k.Avoids j) (t : Tree) :
    (k.run Tree.access t).2.isBarred [] j.schema.names = t.isBarred [] j.schema.names := by
  obtain ⟨ws, hrewrites⟩ := exists_rewrites_run k t
  refine Tree.isBarred_congr fun ms hms _ => hrewrites.content?_eq fun p hp heq => ?_
  exact Tree.ne_location_of_isPrefix (hk.isFile hp).isPlain (hkj.not_covers_schema hp) hms heq.symm

/-! ### The order of two jobs -/

/-- The jobs leave the same tree in both orders, and the result of each is as if it were alone. -/
structure KeepApart (j k : Job) (t : Tree) : Prop where
  tree : (k.run Tree.access (j.run Tree.access t).2).2 = (j.run Tree.access (k.run Tree.access t).2).2
  first : j.Alike (j.run Tree.access t).1 (j.run Tree.access (k.run Tree.access t).2).1
  second : k.Alike (k.run Tree.access t).1 (k.run Tree.access (j.run Tree.access t).2).1

theorem KeepApart.symm (h : KeepApart j k t) : KeepApart k j t := ⟨h.tree.symm, h.second, h.first⟩

/-- A job that cannot be loaded does not matter to the other. -/
theorem keepApart_of_isTooLong (hj : j.IsPlain) (hk : k.IsPlain) (hkj : k.Avoids j)
    (hlong : ∃ n ∈ j.schema.names, FilePath.isTooLong n = true) (t : Tree) : KeepApart j k t := by
  have hleaves : ∀ t, (j.run Tree.access t).2 = t := fun t => (run_of_isTooLong hj hlong rfl).1
  refine ⟨?_, (run_of_isTooLong hj hlong (isBarred_run hk hkj t)).2, ?_⟩
  · rw [hleaves, hleaves]
  · rw [hleaves]
    exact .inl rfl

/-- **Order.** Jobs that keep apart leave the same tree in both orders, and each has the result
that it has alone, but for what is said of a schema with a name that is too long. -/
theorem keepApart_of_avoids (hj : j.IsPlain) (hk : k.IsPlain) (hjk : j.Avoids k) (hkj : k.Avoids j)
    (t : Tree) : KeepApart j k t := by
  by_cases hjlong : ∃ n ∈ j.schema.names, FilePath.isTooLong n = true
  · exact keepApart_of_isTooLong hj hk hkj hjlong t
  · by_cases hklong : ∃ n ∈ k.schema.names, FilePath.isTooLong n = true
    · exact (keepApart_of_isTooLong hk hj hjk hklong t).symm
    · have hcommutes := commutes_of_avoids hj hk hjk hkj (by simpa using hjlong) (by simpa using hklong)
      exact ⟨hcommutes.state t, .inl (hcommutes.fst t).symm, .inl (hcommutes.snd t).symm⟩

/-- A job that shares its directories with others. -/
def sharing (base : String) (copyTo : Option FilePath) : Job where
  schema := ⟨"src/" ++ base ++ ".yaml"⟩
  base := base
  guardStart := "p_"
  output := ⟨"out/inc"⟩
  copyTo := copyTo

/-- A tree with one schema, in which the output directory of the jobs is missing. -/
def bare (schema : FilePath) : Tree := ((Tree.empty ⟨"/"⟩).write schema "nn:\n  Add: {}\n".toUTF8).2

theorem keepApart_sharing :
    (sharing "a" (some ⟨"src"⟩)).IsPlain ∧ (sharing "b" none).IsPlain ∧
    (sharing "a" (some ⟨"src"⟩)).Avoids (sharing "b" none) ∧
    (sharing "b" none).Avoids (sharing "a" (some ⟨"src"⟩)) ∧
    KeepApart (sharing "a" (some ⟨"src"⟩)) (sharing "b" none) (bare ⟨"src/a.yaml"⟩) := by
  have ha : (sharing "a" (some ⟨"src"⟩)).IsPlain := by decide +kernel
  have hb : (sharing "b" none).IsPlain := by decide +kernel
  have hab : (sharing "a" (some ⟨"src"⟩)).Avoids (sharing "b" none) := by decide +kernel
  have hba : (sharing "b" none).Avoids (sharing "a" (some ⟨"src"⟩)) := by decide +kernel
  exact ⟨ha, hb, hab, hba, keepApart_of_avoids ha hb hab hba _⟩

/-! A schema with a name that is too long, in a directory that another job makes. -/

/-- One byte more than a name may have. -/
def longName : String := String.ofList (List.replicate (FilePath.maxNameBytes + 1) 'a')

def unreadable : Job where
  schema := (FilePath.mk "x").join ⟨longName⟩
  base := "j"
  guardStart := "p_"
  output := ⟨"oj"⟩

def maker : Job where
  schema := ⟨"k.yaml"⟩
  base := "k"
  guardStart := "p_"
  output := ⟨"x"⟩

theorem longName_ne {s : String} (h : s.toList.length ≤ FilePath.maxNameBytes) : longName ≠ s := by
  rintro rfl
  rw [longName, String.toList_ofList, List.length_replicate] at h
  omega

theorem not_mem_longName {c : Char} (h : c ≠ 'a') : c ∉ longName.toList := by
  rw [longName, String.toList_ofList]
  exact fun hc => h (List.eq_of_mem_replicate hc)

theorem isPlainName_longName : FilePath.IsPlainName longName where
  ne_empty := longName_ne (by decide)
  ne_dot := longName_ne (by decide)
  ne_up := longName_ne (by decide)
  slash := not_mem_longName (by decide)

theorem schema_unreadable : unreadable.schema = (FilePath.mk "x").join ⟨longName⟩ := by rw [unreadable]

theorem isPlain_x : (FilePath.mk "x").IsPlain := by decide +kernel

theorem isPlain_schema_unreadable : unreadable.schema.IsPlain := by
  rw [schema_unreadable]
  exact FilePath.isPlain_join isPlain_x isPlainName_longName

theorem names_unreadable : unreadable.schema.names = ["x", longName] := by
  have hx : (FilePath.mk "x").names = ["x"] := by decide +kernel
  rw [schema_unreadable, FilePath.names_join isPlain_x isPlainName_longName, hx]
  rfl

theorem fault?_unreadable : unreadable.schema.fault? = none := by
  have htext : unreadable.schema.text = "x" ++ "/" ++ longName := by
    rw [schema_unreadable, FilePath.join_eq isPlain_x isPlainName_longName]
    rfl
  have hsize : ¬FilePath.maxBytes < ("x" ++ "/" ++ longName).utf8ByteSize := by decide +kernel
  have hnul : ("x" ++ "/" ++ longName).toList.contains '\x00' = false := by
    rw [String.toList_append, List.contains_eq_mem, decide_eq_false_iff_not, List.mem_append, not_or]
    exact ⟨by decide, not_mem_longName (by decide)⟩
  have hempty : ("x" ++ "/" ++ longName).isEmpty = false := by
    rw [String.isEmpty_eq_false_iff]
    simp
  rw [FilePath.fault?, htext, hnul, hempty, if_neg hsize]
  rfl

/-- The name is found to be too long as soon as its directory exists. -/
theorem read_unreadable (h : t.content? ["x"] = none) :
    t.read unreadable.schema = .error (if t.IsDirectory ["x"] then .nameTooLong else .notFound) := by
  have hx : FilePath.isTooLong "x" = false := by decide +kernel
  have hlong : FilePath.isTooLong longName = true := by decide +kernel
  have hroot : t.IsDirectory [] := rfl
  have hfollow : t.follow [] ["x", longName] =
      .error (if t.IsDirectory ["x"] then .nameTooLong else .notFound) := by
    have hdot : "x" ≠ "." := by decide
    have hup : "x" ≠ ".." := by decide
    rw [Tree.follow, if_neg (not_not_intro hroot), if_neg hdot, if_neg hup, hx]
    cases he : t.find? ["x"] with
    | none =>
      have hnot : ¬t.IsDirectory ["x"] := fun hdir => by
        rw [Tree.IsDirectory, he] at hdir
        cases hdir
      rw [if_neg hnot]
      rfl
    | some e =>
      have hdir : t.IsDirectory ["x"] := Tree.isDirectory_of_content?_eq_none (by simp [he]) h
      have hname := isPlainName_longName
      rw [if_pos hdir]
      change t.follow ["x"] [longName] = _
      rw [Tree.follow, if_neg (not_not_intro hdir), if_neg hname.ne_dot, if_neg hname.ne_up, hlong]
      rfl
  rw [Tree.read, Tree.locate_eq isPlain_schema_unreadable, fault?_unreadable, names_unreadable, hfollow]

/-- The jobs keep apart, but the directory that one makes shows in the result of the other. -/
theorem run_unreadable_ne :
    unreadable.IsPlain ∧ maker.IsPlain ∧ unreadable.Avoids maker ∧ maker.Avoids unreadable ∧
    (unreadable.run Tree.access (bare ⟨"k.yaml"⟩)).1 ≠
      (unreadable.run Tree.access (maker.run Tree.access (bare ⟨"k.yaml"⟩)).2).1 := by
  have hunreadable : unreadable.IsPlain := by
    refine ⟨isPlain_schema_unreadable, ?_, ?_, ?_⟩
    · decide +kernel
    · simp [unreadable]
    · decide
  have hmaker : maker.IsPlain := by decide +kernel
  have havoids : unreadable.Avoids maker := by
    have hlength : ∀ d ∈ maker.directories, d.names.length = 1 := by decide +kernel
    refine ⟨by decide +kernel, fun d hd hcovers => ?_⟩
    have hle := hcovers.length_le
    rw [names_unreadable, hlength d hd] at hle
    exact absurd hle (by decide)
  have havoids' : maker.Avoids unreadable := by
    have htargets : ∀ p ∈ maker.targets, p.names = ["x", "k.h"] := by decide +kernel
    have hothers : ∀ p ∈ maker.targets, ∀ q ∈ unreadable.directories ++ unreadable.targets, ¬p.Covers q := by
      decide +kernel
    refine ⟨fun p hp q hq hcovers => ?_, by decide +kernel⟩
    rw [paths] at hq
    rcases List.mem_cons.1 hq with heq | hq
    · rw [FilePath.Covers, htargets p hp, heq, names_unreadable] at hcovers
      have hname : "k.h" = longName := (List.cons_prefix_cons.1 (List.cons_prefix_cons.1 hcovers).2).1
      exact longName_ne (by decide) hname.symm
    · exact hothers p hp q hq hcovers
  refine ⟨hunreadable, hmaker, havoids, havoids', ?_⟩
  have hbefore : (bare ⟨"k.yaml"⟩).find? ["x"] = none := by decide +kernel
  have hafter : (maker.run Tree.access (bare ⟨"k.yaml"⟩)).2.IsDirectory ["x"] := by decide +kernel
  have hnot : ¬(bare ⟨"k.yaml"⟩).IsDirectory ["x"] := fun hdir => by
    rw [Tree.IsDirectory, hbefore] at hdir
    cases hdir
  have hcontent : (bare ⟨"k.yaml"⟩).content? ["x"] = none := by rw [Tree.content?, hbefore]
  have hread := read_unreadable hcontent
  have hread' := read_unreadable (Tree.content?_eq_none hafter)
  rw [if_neg hnot] at hread
  rw [if_pos hafter] at hread'
  rw [run_of_read_error hread, run_of_read_error hread']
  intro heq
  cases heq

end Job

end OpHeaders.Compile
