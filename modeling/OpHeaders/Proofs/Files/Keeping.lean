import OpHeaders.Proofs.Files.LastName

/-! Trees in which the entries of an earlier tree are still there. A path that was followed then
leads to the same place, and a file is read as before unless its content may have changed. A
write that succeeded before finds its directories made: it makes none and succeeds again. -/
namespace OpHeaders.Files

/-- In the same place, directories stay directories and files stay files. -/
structure Extends (t t' : Tree) : Prop where
  start_eq : t'.start = t.start
  directory : ∀ l, t.IsDirectory l → t'.IsDirectory l
  file : ∀ l, (t.content? l).isSome → (t'.content? l).isSome

/-- Besides, files keep their content but for the places for headers. -/
structure KeepsSources (t t' : Tree) : Prop extends Extends t t' where
  content : ∀ l, ¬IsHeader l → t'.content? l = t.content? l

variable {t t' t'' t₁ : Tree} {p : FilePath} {here l : Location} {ns : List String} {s : String}
  {content content' : ByteArray} {fresh fresh' : Bool}

namespace Extends

theorem trans (h : Extends t t') (h' : Extends t' t'') : Extends t t'' where
  start_eq := h'.start_eq.trans h.start_eq
  directory l hl := h'.directory l (h.directory l hl)
  file l hl := h'.file l (h.file l hl)

theorem of_puts (h : Tree.Puts l content t t') : Extends t t' where
  start_eq := h.start_eq
  directory k hk := (h.isDirectory_iff k).mpr hk
  file k hk := by
    rw [h.content?_eq k]
    split_ifs
    · rfl
    · exact hk

theorem of_rewrites {targets : List FilePath} {ws : List Write} (h : Rewrites targets ws t t') :
    Extends t t' where
  start_eq := h.start_eq
  directory := h.kept
  file l hl := by
    obtain ⟨content, hcontent⟩ := Option.isSome_iff_exists.mp hl
    obtain ⟨content', hcontent'⟩ := h.exists_content? hcontent
    simp [hcontent']

theorem not_isDirectory (h : Extends t t') (hfile : (t.content? l).isSome) : ¬t'.IsDirectory l := by
  intro hdir
  have hfile' := h.file l hfile
  rw [Tree.content?_eq_none hdir] at hfile'
  cases hfile'

theorem find?_isSome (h : Extends t t') (hl : (t.find? l).isSome) : (t'.find? l).isSome := by
  cases he : t.find? l with
  | none => simp [he] at hl
  | some e =>
    cases e with
    | directory => simp [show t'.find? l = some .directory from h.directory l he]
    | file content =>
      have hfile := h.file l (by simp [Tree.content?, he])
      obtain ⟨content', hcontent⟩ := Option.isSome_iff_exists.mp hfile
      simp [Tree.content?_eq_some_iff.mp hcontent]

/-! ### Following again -/

theorem follow_eq (h : Extends t t') (hf : t.follow here ns = .ok l) : t'.follow here ns = .ok l := by
  induction ns generalizing here with
  | nil => exact hf
  | cons n ns ih =>
    rw [Tree.follow] at hf ⊢
    split at hf
    · cases hf
    · next hhere =>
      rw [if_neg (not_not_intro (h.directory here (not_not.mp hhere)))]
      split_ifs at hf ⊢
      · exact ih hf
      · exact ih hf
      · cases he : t.find? (n :: here) with
        | none => simp [he] at hf
        | some e =>
          have hsome : (t'.find? (n :: here)).isSome := h.find?_isSome (by simp [he])
          obtain ⟨e', he'⟩ := Option.isSome_iff_exists.mp hsome
          rw [he] at hf
          rw [he']
          exact ih hf

theorem locate_eq (h : Extends t t') (hl : t.locate p = .ok l) : t'.locate p = .ok l := by
  obtain ⟨hfault, hfollow⟩ := Tree.locate_eq_ok_iff.mp hl
  exact Tree.locate_eq_ok_iff.mpr ⟨hfault, h.follow_eq hfollow⟩

theorem read_eq (h : Extends t t') (hcontent : t'.content? p.location = t.content? p.location)
    (hr : t.read p = .ok s) : t'.read p = .ok s := by
  obtain ⟨l, content, hlocate, hl, htext⟩ := Tree.read_eq_ok_iff.mp hr
  rw [Tree.location_eq_of_locate hlocate] at hcontent
  exact Tree.read_eq_ok_iff.mpr ⟨l, content, h.locate_eq hlocate, hcontent.trans hl, htext⟩

end Extends

namespace KeepsSources

theorem refl (t : Tree) : KeepsSources t t where
  start_eq := rfl
  directory _ hl := hl
  file _ hl := hl
  content _ _ := rfl

theorem trans (h : KeepsSources t t') (h' : KeepsSources t' t'') : KeepsSources t t'' where
  toExtends := h.toExtends.trans h'.toExtends
  content l hl := (h'.content l hl).trans (h.content l hl)

/-- Writes to paths that end in `.h` keep the sources. -/
theorem of_rewrites {targets : List FilePath} {ws : List Write} (h : Rewrites targets ws t t')
    (htargets : ∀ p ∈ targets, headerEnd <:+ p.text.toList) : KeepsSources t t' where
  toExtends := .of_rewrites h
  content l hl := by
    apply h.content?_eq
    rintro p hp rfl
    exact hl (FilePath.isHeader_location (htargets p hp))

theorem read_eq (h : KeepsSources t t') (hp : ¬headerEnd <:+ p.text.toList) (hr : t.read p = .ok s) :
    t'.read p = .ok s :=
  h.toExtends.read_eq (h.content _ (Tree.not_isHeader_of_read hp hr)) hr

end KeepsSources

/-! ### Writing again -/

namespace Tree

theorem isDirectory_of_makeAlong (h : t.makeAlong fresh here ns = (.ok (), t₁)) (hl : t.IsDirectory l) :
    t₁.IsDirectory l := by
  have hgrows := grows_makeAlong t fresh here ns
  rw [h] at hgrows
  exact hgrows.isDirectory hl

/-- Where the directories have been made, there is nothing left to make. -/
theorem makeAlong_again (h : t.makeAlong fresh here ns = (.ok (), t₁))
    (hdir : ∀ l, t₁.IsDirectory l → t'.IsDirectory l) : t'.makeAlong fresh' here ns = (.ok (), t') := by
  induction ns generalizing t fresh here with
  | nil => rfl
  | cons n ns ih =>
    have hagain : t₁.IsDirectory (n :: here) → t'.find? (n :: here) = some .directory := hdir _
    rw [makeAlong] at h ⊢
    by_cases hdot : n = "."
    · rw [if_pos hdot] at h ⊢
      exact ih h
    rw [if_neg hdot] at h ⊢
    by_cases hup : n = ".."
    · rw [if_pos hup] at h ⊢
      exact ih h
    rw [if_neg hup] at h ⊢
    by_cases hlong : FilePath.isTooLong n = true
    · rw [if_pos hlong] at h
      cases h
    rw [if_neg hlong] at h ⊢
    split at h
    · next hthere =>
      rw [hagain (isDirectory_of_makeAlong h hthere)]
      exact ih h
    · cases h
    · split at h
      · have hmade : (t.addDirectory n here ‹_›).IsDirectory (n :: here) := by
          rw [IsDirectory, find?_addDirectory, if_pos rfl]
        rw [hagain (isDirectory_of_makeAlong h hmade)]
        exact ih h
      · cases h

theorem makeDirectories_again (h : t.makeDirectories p = (.ok (), t₁))
    (hdir : ∀ l, t₁.IsDirectory l → t'.IsDirectory l) : t'.makeDirectories p = (.ok (), t') := by
  rw [makeDirectories] at h ⊢
  split at h
  · cases h
  · exact makeAlong_again h hdir

/-- The files at the written places have changed, and nothing else. -/
structure Overwrites (ws : List Write) (t t' : Tree) : Prop where
  start_eq : t'.start = t.start
  entries_eq : ∀ l : Location, t'.entries[l]? = ((lastWrite ws l).map Entry.file).or t.entries[l]?

theorem Overwrites.refl (t : Tree) : Overwrites [] t t := ⟨rfl, fun _ => rfl⟩

theorem Overwrites.trans {ws ws' : List Write} (h : Overwrites ws t t') (h' : Overwrites ws' t' t'') :
    Overwrites (ws ++ ws') t t'' where
  start_eq := h'.start_eq.trans h.start_eq
  entries_eq l := by
    rw [h'.entries_eq l, h.entries_eq l, lastWrite_append, Option.map_or, Option.or_assoc]

/-- What a path has to be like for a file to be put there, under the name `n` in `dir`. -/
structure Fits (t : Tree) (p : FilePath) (dir : Location) (n : String) : Prop where
  fault : p.fault? = none
  slash : p.endsInSlash = false
  ne_dot : n ≠ "."
  ne_up : n ≠ ".."
  short : FilePath.isTooLong n = false
  names : ∃ ns, p.names = ns ++ [n] ∧ t.follow [] ns = .ok dir

theorem Fits.location_eq {dir : Location} {n : String} (h : t.Fits p dir n) : p.location = n :: dir := by
  obtain ⟨ns, hnames, hfollow⟩ := h.names
  rw [FilePath.location_of_names_eq hnames h.ne_dot h.ne_up, follow_eq_ok hfollow]

theorem Fits.extends {dir : Location} {n : String} (h : t.Fits p dir n) (hext : Extends t t') :
    t'.Fits p dir n := by
  obtain ⟨ns, hnames, hfollow⟩ := h.names
  exact { h with names := ⟨ns, hnames, hext.follow_eq hfollow⟩ }

theorem place_eq_placeIn {dir : Location} {n : String} (h : t.Fits p dir n) (hdir : t.IsDirectory dir)
    (content : ByteArray) : t.place p content = t.placeIn dir n content := by
  obtain ⟨ns, hnames, hfollow⟩ := h.names
  rw [place, h.fault]
  simp [hnames, hfollow, hdir, h.ne_dot, h.ne_up, h.short, h.slash, bind, Except.bind]

/-- A file is put at a path only if the path fits. -/
theorem exists_fits_of_place (h : t.place p content = .ok t₁) :
    ∃ dir n, t.Fits p dir n ∧ t.IsDirectory dir := by
  rw [place] at h
  split at h
  · cases h
  · next hfault =>
    split at h
    · cases h
    · next n above hnames =>
      have hp : p.names = above.reverse ++ [n] := by
        rw [← List.reverse_reverse p.names, hnames, List.reverse_cons]
      cases hfollow : t.follow [] above.reverse with
      | error f =>
        rw [hfollow] at h
        cases h
      | ok dir =>
        rw [hfollow] at h
        simp only [bind, Except.bind] at h
        split_ifs at h with hdir hname hlong hslash
        rw [Bool.or_eq_true, not_or, decide_eq_true_iff, decide_eq_true_iff] at hname
        refine ⟨dir, n, ⟨hfault, ?_, hname.1, hname.2, ?_, above.reverse, hp, hfollow⟩, hdir⟩
        · exact Bool.eq_false_iff.mpr hslash
        · exact Bool.eq_false_iff.mpr hlong

/-- A file is put where it was put before, unless there is a directory now. -/
theorem place_again (h : t.place p content = .ok t₁) (hext : Extends t t')
    (hfile : ¬t'.IsDirectory p.location) (content' : ByteArray) :
    ∃ t₂, t'.place p content' = .ok t₂ ∧ Overwrites [⟨p.location, content'⟩] t' t₂ := by
  obtain ⟨dir, n, hfits, hdir⟩ := exists_fits_of_place h
  have hdir' : t'.IsDirectory dir := hext.directory dir hdir
  have hlocation := hfits.location_eq
  rw [hlocation] at hfile
  refine ⟨t'.setFile n dir content' hdir' hfile, ?_, rfl, ?_⟩
  · rw [place_eq_placeIn (hfits.extends hext) hdir', placeIn, dif_pos hdir', dif_neg hfile]
  · intro l
    rw [entries_setFile, lastWrite_singleton, hlocation]
    split_ifs
    · rfl
    · rfl

/-- A write that has succeeded succeeds again, and it only replaces the file. -/
theorem write_again (h : t.write p content = (.ok (), t₁)) (hext : Extends t₁ t') (content' : ByteArray) :
    ∃ t₂, t'.write p content' = (.ok (), t₂) ∧ Overwrites [⟨p.location, content'⟩] t' t₂ := by
  rw [write] at h
  split at h
  · cases h
  · next t₀ hmake =>
    split at h
    · cases h
    · next hroom =>
      split at h
      · cases h
      · next hplace =>
        cases h
        have hputs := puts_place hplace
        have hext₀ : Extends t₀ t' := (Extends.of_puts hputs).trans hext
        have hstart : t'.start = t.start := hext₀.start_eq.trans (grows_of_makeDirectories hmake).start_eq
        have hmake' := makeDirectories_again hmake hext₀.directory
        have hthere : (t₁.content? p.location).isSome := by
          rw [hputs.content?_eq, if_pos rfl]
          rfl
        have hfile : ¬t'.IsDirectory p.location := hext.not_isDirectory hthere
        obtain ⟨t₂, hplace', hover⟩ := place_again hplace hext₀ hfile content'
        refine ⟨t₂, ?_, hover⟩
        rw [write, hmake', hstart]
        simp only [if_neg hroom, hplace']

end Tree

end OpHeaders.Files
