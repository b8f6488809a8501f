import OpHeaders.Proofs.Files.Writing

/-! The joint effect of writes to a set of paths. Entries stay what they are, files hold
what was last written to them, and new directories are passed by the paths. Such effects
compose. -/
namespace OpHeaders.Files

/-- A file that was written as a whole. -/
structure Write where
  location : Location
  content : ByteArray

/-- What the last of the writes to a location has put there. -/
def lastWrite (ws : List Write) (l : Location) : Option ByteArray :=
  (ws.filter (·.location = l)).getLast?.map Write.content

theorem lastWrite_append (ws ws' : List Write) (l : Location) :
    lastWrite (ws ++ ws') l = (lastWrite ws' l).or (lastWrite ws l) := by
  rw [lastWrite, List.filter_append, List.getLast?_append, Option.map_or]
  rfl

theorem lastWrite_singleton (w : Write) (l : Location) :
    lastWrite [w] l = if l = w.location then some w.content else none := by
  by_cases hl : l = w.location
  · simp [lastWrite, hl]
  · simp [lastWrite, hl, Ne.symm hl]

theorem exists_mem_of_lastWrite {ws : List Write} {l : Location} {content : ByteArray}
    (h : lastWrite ws l = some content) : ∃ w ∈ ws, w.location = l := by
  obtain ⟨w, hw, -⟩ := Option.map_eq_some_iff.mp h
  have hmem := List.mem_of_getLast? hw
  rw [List.mem_filter, decide_eq_true_iff] at hmem
  exact ⟨w, hmem⟩

namespace Tree

variable {t t' t'' : Tree} {l : Location} {content : ByteArray}

/-- The content of the file at a location. -/
def content? (t : Tree) (l : Location) : Option ByteArray :=
  match t.find? l with
  | some (.file content) => some content
  | _ => none

theorem content?_eq_some_iff : t.content? l = some content ↔ t.find? l = some (.file content) := by
  rw [content?]
  constructor
  · intro h
    split at h
    · next hfile => rw [hfile]; cases h; rfl
    · cases h
  · intro h
    rw [h]

theorem content?_eq_none (h : t.IsDirectory l) : t.content? l = none := by
  rw [content?, h]

theorem Grows.content?_eq {P : Location → Prop} (h : Grows P t t') (l : Location) :
    t'.content? l = t.content? l := by
  rcases h.find?_eq l with heq | ⟨hnone, hdir, -⟩
  · rw [content?, content?, heq]
  · rw [content?_eq_none hdir, content?, hnone]

theorem Grows.isDirectory {P : Location → Prop} (h : Grows P t t') (hl : t.IsDirectory l) :
    t'.IsDirectory l := by
  rcases h.find?_eq l with heq | ⟨-, hdir, -⟩
  · exact heq.trans hl
  · exact hdir

theorem Puts.content?_eq {k : Location} (h : Puts k content t t') (l : Location) :
    t'.content? l = if l = k then some content else t.content? l := by
  rw [content?, h.find?_eq l]
  by_cases hl : l = k
  · rw [if_pos hl, if_pos hl]
  · rw [if_neg hl, if_neg hl, content?]

theorem Puts.isDirectory_iff {k : Location} (h : Puts k content t t') (l : Location) :
    t'.IsDirectory l ↔ t.IsDirectory l := by
  rw [IsDirectory, h.find?_eq l]
  by_cases hl : l = k
  · subst hl
    rw [if_pos rfl]
    exact iff_of_false (by rintro ⟨⟩) h.notDirectory
  · rw [if_neg hl, IsDirectory]

end Tree

/-- The effect of the writes `ws` to some of the paths `targets`. -/
structure Rewrites (targets : List FilePath) (ws : List Write) (t t' : Tree) : Prop where
  start_eq : t'.start = t.start
  aimed : ∀ w ∈ ws, ∃ p ∈ targets, p.location = w.location
  kept : ∀ l, t.IsDirectory l → t'.IsDirectory l
  made : ∀ l, t'.IsDirectory l → t.IsDirectory l ∨ t.find? l = none ∧ ∃ p ∈ targets, p.Passes l
  content : ∀ l, t'.content? l = (lastWrite ws l).or (t.content? l)

namespace Rewrites

variable {targets targets' : List FilePath} {ws ws' : List Write} {t t' t'' : Tree}
  {p : FilePath} {l : Location} {content : ByteArray}

theorem refl (targets : List FilePath) (t : Tree) : Rewrites targets [] t t where
  start_eq := rfl
  aimed _ hw := by cases hw
  kept _ h := h
  made _ h := .inl h
  content _ := rfl

theorem mono (h : Rewrites targets ws t t') (hsub : targets ⊆ targets') : Rewrites targets' ws t t' where
  start_eq := h.start_eq
  aimed w hw := by
    obtain ⟨p, hp, heq⟩ := h.aimed w hw
    exact ⟨p, hsub hp, heq⟩
  kept := h.kept
  made l hl := by
    rcases h.made l hl with hdir | ⟨hnone, p, hp, hpass⟩
    · exact .inl hdir
    · exact .inr ⟨hnone, p, hsub hp, hpass⟩
  content := h.content

theorem of_grows (hp : p ∈ targets) (h : Tree.Grows p.Passes t t') : Rewrites targets [] t t' where
  start_eq := h.start_eq
  aimed _ hw := by cases hw
  kept _ := h.isDirectory
  made l hl := by
    rcases h.find?_eq l with heq | ⟨hnone, -, hpass⟩
    · exact .inl (heq.symm.trans hl)
    · exact .inr ⟨hnone, p, hp, hpass⟩
  content l := h.content?_eq l

theorem of_puts (hp : p ∈ targets) (h : Tree.Puts p.location content t t') :
    Rewrites targets [⟨p.location, content⟩] t t' where
  start_eq := h.start_eq
  aimed w hw := by
    rw [List.mem_singleton.mp hw]
    exact ⟨p, hp, rfl⟩
  kept l := (h.isDirectory_iff l).mpr
  made l hl := .inl ((h.isDirectory_iff l).mp hl)
  content l := by
    rw [h.content?_eq l, lastWrite_singleton]
    by_cases hl : l = p.location
    · rw [if_pos hl, if_pos hl, Option.some_or]
    · rw [if_neg hl, if_neg hl, Option.none_or]

/-- A file stays a file. -/
theorem exists_content? (h : Rewrites targets ws t t') (hl : t.content? l = some content) :
    ∃ content', t'.content? l = some content' := by
  rw [h.content l, hl]
  cases lastWrite ws l with
  | none => exact ⟨content, rfl⟩
  | some content' => exact ⟨content', rfl⟩

/-- An entry stays. -/
theorem find?_eq_none (h : Rewrites targets ws t t') (hnone : t'.find? l = none) : t.find? l = none := by
  cases hl : t.find? l with
  | none => rfl
  | some e =>
    cases e with
    | directory =>
      rw [h.kept l hl] at hnone
      cases hnone
    | file content =>
      obtain ⟨content', hcontent⟩ := h.exists_content? (Tree.content?_eq_some_iff.mpr hl)
      rw [Tree.content?_eq_some_iff.mp hcontent] at hnone
      cases hnone

theorem trans (h : Rewrites targets ws t t') (h' : Rewrites targets ws' t' t'') :
    Rewrites targets (ws ++ ws') t t'' where
  start_eq := h'.start_eq.trans h.start_eq
  aimed w hw := by
    rcases List.mem_append.mp hw with hw | hw
    · exact h.aimed w hw
    · exact h'.aimed w hw
  kept l hl := h'.kept l (h.kept l hl)
  made l hl := by
    rcases h'.made l hl with hdir | ⟨hnone, hpass⟩
    · exact h.made l hdir
    · exact .inr ⟨h.find?_eq_none hnone, hpass⟩
  content l := by rw [h'.content l, h.content l, lastWrite_append, Option.or_assoc]

/-- What is there after the writes was there before, or is a file that was written, or is a directory
that the paths pass. -/
theorem find?_eq_some (h : Rewrites targets ws t t') {e : Entry} (he : t'.find? l = some e)
    (hnone : t.find? l = none) :
    ((∃ content, e = .file content) ∧ ∃ p ∈ targets, p.location = l) ∨
      e = .directory ∧ ∃ p ∈ targets, p.Passes l := by
  cases e with
  | directory =>
    rcases h.made l he with hdir | ⟨-, hpass⟩
    · rw [hdir] at hnone; cases hnone
    · exact .inr ⟨rfl, hpass⟩
  | file content =>
    have hcontent := h.content l
    rw [Tree.content?_eq_some_iff.mpr he, Tree.content?, hnone, Option.or_none] at hcontent
    obtain ⟨w, hw, rfl⟩ := exists_mem_of_lastWrite hcontent.symm
    exact .inl ⟨⟨content, rfl⟩, h.aimed w hw⟩

theorem content?_eq (h : Rewrites targets ws t t') (hl : ∀ p ∈ targets, p.location ≠ l) :
    t'.content? l = t.content? l := by
  have hlast : lastWrite ws l = none := by
    cases hws : lastWrite ws l with
    | none => rfl
    | some content =>
      obtain ⟨w, hw, rfl⟩ := exists_mem_of_lastWrite hws
      obtain ⟨p, hp, heq⟩ := h.aimed w hw
      exact absurd heq (hl p hp)
  rw [h.content l, hlast, Option.none_or]

theorem of_write_ok (hp : p ∈ targets) (hwrite : t.write p content = (.ok (), t')) :
    Rewrites targets [⟨p.location, content⟩] t t' := by
  obtain ⟨t₁, hgrows, ⟨f, h⟩ | ⟨t₂, hputs, h⟩⟩ := Tree.write_cases t p content
  · rw [h] at hwrite
    cases hwrite
  · rw [h] at hwrite
    cases hwrite
    exact (of_grows hp hgrows).trans (of_puts hp hputs)

/-- A write that fails may have made directories. -/
theorem of_write_error {f : WriteFault} (hp : p ∈ targets) (hwrite : t.write p content = (.error f, t')) :
    Rewrites targets [] t t' := by
  obtain ⟨t₁, hgrows, ⟨f, h⟩ | ⟨t₂, hputs, h⟩⟩ := Tree.write_cases t p content
  · rw [h] at hwrite
    cases hwrite
    exact of_grows hp hgrows
  · rw [h] at hwrite
    cases hwrite

end Rewrites

end OpHeaders.Files
