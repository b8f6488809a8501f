import OpHeaders.Proofs.Files.Independence
import OpHeaders.Proofs.Files.Staging

/-! A write takes place as a whole or not at all. Whichever way it goes, what it leaves behind is told entry
by entry. -/
namespace OpHeaders.Files.Tree

variable {t t' : Tree} {p : FilePath} {content : ByteArray} {r : Except WriteFault Unit} {l : Location}

/-- What it takes for a write to succeed: the directory can be made and has room, the path can name a
file, and no directory has it. -/
structure Writable (t : Tree) (p : FilePath) : Prop where
  made : (t.makeDirectories p.directory).1 = .ok ()
  room : p.directory.hasNoRoom t.start = false
  path : p.NamesFile
  free : ¬(t.makeDirectories p.directory).2.IsDirectory p.location

/-- What a write leaves behind: the file with all of the content, or each file as it was. -/
structure AllOrNothing (t : Tree) (p : FilePath) (content : ByteArray) (r : Except WriteFault Unit)
    (t' : Tree) : Prop where
  succeeds : r = .ok () ↔ t.Writable p
  kept : Extends t t'
  others : ∀ l, l ≠ p.location → t'.content? l = t.content? l
  /-- A new entry is the file, or one of the directories on the way to that of the file. -/
  fresh : ∀ l e, t.find? l = none → t'.find? l = some e →
    r = .ok () ∧ l = p.location ∨ e = .directory ∧ Through [] p.directory.names l
  written : r = .ok () → t'.locate p = .ok p.location ∧ t'.content? p.location = some content
  unwritten : ∀ f, r = .error f → (∀ l, t'.content? l = t.content? l) ∧
    f.path = if (t.makeDirectories p.directory).1.isOk then p else p.directory
  /-- With the file for the content under any name that is free, the result and the tree are the same. -/
  staged : ∀ temporary ∉ p.names, t.find? (temporary :: p.directory.location) = none →
    t.writeBy temporary p content = (r, t')

namespace Writes

theorem eq_ok_iff (h : t.Writes p content r t') : r = .ok () ↔ t.Writable p := by
  cases h with
  | unmade hmake =>
    refine iff_of_false (by rintro ⟨⟩) fun h => ?_
    have hmade := h.made
    rw [hmake] at hmade
    cases hmade
  | cramped hmake hroom =>
    refine iff_of_false (by rintro ⟨⟩) fun h => ?_
    rw [h.room] at hroom
    cases hroom
  | unplaced hmake hroom hplace =>
    refine iff_of_false (by rintro ⟨⟩) fun h => ?_
    have hfree := h.free
    rw [hmake] at hfree
    obtain ⟨t₂, hplace'⟩ := (exists_place_eq_ok_iff hmake content).mpr ⟨h.path, hfree⟩
    rw [hplace] at hplace'
    cases hplace'
  | placed hmake hroom hplace =>
    obtain ⟨hpath, hfree⟩ := (exists_place_eq_ok_iff hmake content).mp ⟨_, hplace⟩
    exact iff_of_true rfl ⟨by rw [hmake], hroom, hpath, by rwa [hmake]⟩

/-- A write that fails leaves what making the directory has left. -/
theorem of_error {f : WriteFault} (h : t.Writes p content (.error f) t') :
    t' = (t.makeDirectories p.directory).2 ∧
      f.path = if (t.makeDirectories p.directory).1.isOk then p else p.directory := by
  cases h with
  | unmade hmake => rw [hmake]; exact ⟨rfl, rfl⟩
  | cramped hmake hroom => rw [hmake]; exact ⟨rfl, rfl⟩
  | unplaced hmake hroom hplace => rw [hmake]; exact ⟨rfl, rfl⟩

/-- A write that succeeds puts the file there besides. -/
theorem of_ok (h : t.Writes p content (.ok ()) t') :
    (t.makeDirectories p.directory).2.place p content = .ok t' := by
  cases h with
  | placed hmake hroom hplace => rw [hmake]; exact hplace

theorem fresh (h : t.Writes p content r t') {e : Entry} (hnone : t.find? l = none)
    (he : t'.find? l = some e) :
    r = .ok () ∧ l = p.location ∨ e = .directory ∧ Through [] p.directory.names l := by
  have hmade : ∀ e, (t.makeDirectories p.directory).2.find? l = some e →
      e = .directory ∧ Through [] p.directory.names l := by
    intro e he
    rcases (grows_makeDirectories t p.directory).find?_eq l with heq | ⟨-, hdir, hthrough⟩
    · rw [heq, hnone] at he
      cases he
    · rw [IsDirectory, he] at hdir
      exact ⟨Option.some.inj hdir, hthrough⟩
  cases r with
  | error f =>
    rw [h.of_error.1] at he
    exact .inr (hmade e he)
  | ok u =>
    by_cases hl : l = p.location
    · exact .inl ⟨rfl, hl⟩
    · rw [(puts_place h.of_ok).find?_eq, if_neg hl] at he
      exact .inr (hmade e he)

end Writes

/-! ### What a write leaves behind -/

theorem extends_of_write (h : t.write p content = (r, t')) : Extends t t' := by
  cases r with
  | error f => exact .of_rewrites (Rewrites.of_write_error (List.mem_singleton_self p) h)
  | ok u => exact .of_rewrites (Rewrites.of_write_ok (List.mem_singleton_self p) h)

theorem locate_of_write (h : t.write p content = (.ok (), t')) : t'.locate p = .ok p.location :=
  locate_of_place (writes_of_write_eq h).of_ok

/-- A write is all or nothing, and goes step by step by way of a temporary file without a trace of it. -/
theorem write_allOrNothing (t : Tree) (p : FilePath) (content : ByteArray) :
    ∃ r t', t.write p content = (r, t') ∧ t.AllOrNothing p content r t' := by
  obtain ⟨r, t', hwrite⟩ : ∃ r t', t.write p content = (r, t') := ⟨_, _, rfl⟩
  have h := writes_of_write_eq hwrite
  refine ⟨r, t', hwrite, h.eq_ok_iff, extends_of_write hwrite, ?_, fun l e => h.fresh, ?_, ?_, ?_⟩
  · intro l hl
    have hcontent : (t.write p content).2.content? l = t.content? l := content?_write hl
    rwa [hwrite] at hcontent
  · rintro rfl
    refine ⟨locate_of_write hwrite, ?_⟩
    rw [(puts_place h.of_ok).content?_eq, if_pos rfl]
  · rintro f rfl
    obtain ⟨htree, hpath⟩ := h.of_error
    exact ⟨fun l => by rw [htree, (grows_makeDirectories t p.directory).content?_eq l], hpath⟩
  · intro temporary hp hfree
    rw [writeBy_eq hp hfree, hwrite]

end OpHeaders.Files.Tree
