import OpHeaders.Proofs.Files.Location

/-! What a write does to a tree. Directories may appear that the path passes, whether or
not the write succeeds. Only a write that succeeds changes a file, which is the one at the
location of the path. -/
namespace OpHeaders.Files

namespace Tree

variable {t t' t'' : Tree} {here l : Location} {n : String} {ns : List String}

/-! ### Entries -/

theorem ext_entries (hstart : t.start = t'.start) (h : ∀ l : Location, t.entries[l]? = t'.entries[l]?) :
    t = t' := by
  obtain ⟨start, entries, _⟩ := t
  obtain ⟨start', entries', _⟩ := t'
  obtain rfl : start = start' := hstart
  obtain rfl : entries = entries' := Std.ExtTreeMap.ext_getElem? h
  rfl

theorem find?_cons (t : Tree) (n : String) (l : Location) : t.find? (n :: l) = t.entries[n :: l]? := rfl

theorem entries_addDirectory (h : t.IsDirectory here) (l : Location) :
    (t.addDirectory n here h).entries[l]? = if l = n :: here then some .directory else t.entries[l]? := by
  rw [addDirectory, Std.ExtTreeMap.getElem?_insert]
  simp only [Std.LawfulEqOrd.compare_eq_iff_eq, @eq_comm _ (n :: here)]

theorem find?_addDirectory (h : t.IsDirectory here) (l : Location) :
    (t.addDirectory n here h).find? l = if l = n :: here then some .directory else t.find? l := by
  cases l with
  | nil => rfl
  | cons m l => rw [find?_cons, entries_addDirectory, find?_cons]

theorem entries_setFile (content : ByteArray) (h : t.IsDirectory here) (hn : ¬t.IsDirectory (n :: here))
    (l : Location) : (t.setFile n here content h hn).entries[l]? =
      if l = n :: here then some (.file content) else t.entries[l]? := by
  rw [setFile, Std.ExtTreeMap.getElem?_insert]
  simp only [Std.LawfulEqOrd.compare_eq_iff_eq, @eq_comm _ (n :: here)]

theorem find?_setFile (content : ByteArray) (h : t.IsDirectory here) (hn : ¬t.IsDirectory (n :: here))
    (l : Location) :
    (t.setFile n here content h hn).find? l =
      if l = n :: here then some (.file content) else t.find? l := by
  cases l with
  | nil => rfl
  | cons m l => rw [find?_cons, entries_setFile, find?_cons]

/-- A tree follows names to where they lead or not at all. -/
theorem follow_eq_ok (h : t.follow here ns = .ok l) : ns.foldl enter here = l := by
  induction ns generalizing here with
  | nil => cases h; rfl
  | cons n ns ih =>
    rw [follow] at h
    rw [List.foldl_cons, enter]
    split at h
    · cases h
    · split at h
      · next hdot => rw [if_pos hdot]; exact ih h
      · next hdot =>
        rw [if_neg hdot]
        split at h
        · next hup => rw [if_pos hup]; exact ih h
        · next hup =>
          rw [if_neg hup]
          split at h
          · cases h
          · split at h
            · exact ih h
            · cases h

/-! ### Growing -/

/-- The trees agree but for directories that appear where `P` allows them. -/
structure Grows (P : Location → Prop) (t t' : Tree) : Prop where
  start_eq : t'.start = t.start
  find?_eq : ∀ l, t'.find? l = t.find? l ∨ t.find? l = none ∧ t'.IsDirectory l ∧ P l

theorem Grows.refl (P : Location → Prop) (t : Tree) : Grows P t t := ⟨rfl, fun _ => .inl rfl⟩

theorem Grows.mono {P Q : Location → Prop} (h : Grows P t t') (hPQ : ∀ l, P l → Q l) : Grows Q t t' where
  start_eq := h.start_eq
  find?_eq l := by
    rcases h.find?_eq l with heq | ⟨hnone, hdir, hP⟩
    · exact .inl heq
    · exact .inr ⟨hnone, hdir, hPQ l hP⟩

theorem Grows.trans {P : Location → Prop} (h : Grows P t t') (h' : Grows P t' t'') : Grows P t t'' where
  start_eq := h'.start_eq.trans h.start_eq
  find?_eq l := by
    rcases h.find?_eq l with heq | ⟨hnone, hdir, hP⟩
    · rw [← heq]
      exact h'.find?_eq l
    · rcases h'.find?_eq l with heq' | ⟨hnone', -, -⟩
      · exact .inr ⟨hnone, heq'.trans hdir, hP⟩
      · -- What has appeared does not appear again.
        rw [hdir] at hnone'
        cases hnone'

theorem grows_addDirectory (h : t.IsDirectory here) (hnone : t.find? (n :: here) = none) :
    Grows (· = n :: here) t (t.addDirectory n here h) where
  start_eq := rfl
  find?_eq l := by
    by_cases hl : l = n :: here
    · subst hl
      exact .inr ⟨hnone, by rw [IsDirectory, find?_addDirectory, if_pos rfl], rfl⟩
    · exact .inl (by rw [find?_addDirectory, if_neg hl])

theorem grows_makeAlong (t : Tree) (fresh : Bool) (here : Location) (ns : List String) :
    Grows (Through here ns) t (t.makeAlong fresh here ns).2 := by
  induction ns generalizing t fresh here with
  | nil => exact .refl _ t
  | cons n ns ih =>
    have ih (t : Tree) (fresh : Bool) :
        Grows (Through here (n :: ns)) t (t.makeAlong fresh (enter here n) ns).2 :=
      (ih t fresh (enter here n)).mono fun _ => Through.cons
    rw [makeAlong]
    by_cases hdot : n = "."
    · rw [if_pos hdot]
      rw [enter, if_pos hdot] at ih
      exact ih t fresh
    rw [if_neg hdot]
    by_cases hup : n = ".."
    · rw [if_pos hup]
      rw [enter, if_neg hdot, if_pos hup] at ih
      exact ih t fresh
    rw [if_neg hup]
    have hthrough := through_enter here n ns
    rw [enter_of_ne here hdot hup] at ih hthrough
    split
    · exact .refl _ t
    · split
      · exact ih t fresh
      · exact .refl _ t
      · next hnone =>
        split
        · next hdir =>
          have hadd := (grows_addDirectory hdir hnone).mono
            (Q := Through here (n :: ns)) (by rintro _ rfl; exact hthrough)
          exact hadd.trans (ih _ true)
        · exact .refl _ t

theorem grows_makeDirectories (t : Tree) (p : FilePath) :
    Grows (Through [] p.names) t (t.makeDirectories p).2 := by
  rw [makeDirectories]
  split
  · exact .refl _ t
  · exact grows_makeAlong t false [] p.names

theorem grows_of_makeDirectories {p : FilePath} {r : Except Fault Unit} (h : t.makeDirectories p = (r, t')) :
    Grows (Through [] p.names) t t' := by
  have hgrows := grows_makeDirectories t p
  rwa [h] at hgrows

/-! ### Writing -/

/-- The second tree has a file with this content at `l`, and no other difference. -/
structure Puts (l : Location) (content : ByteArray) (t t' : Tree) : Prop where
  start_eq : t'.start = t.start
  notDirectory : ¬t.IsDirectory l
  find?_eq : ∀ k, t'.find? k = if k = l then some (.file content) else t.find? k

theorem puts_placeIn {content : ByteArray} (h : t.placeIn here n content = .ok t') :
    Puts (n :: here) content t t' := by
  rw [placeIn] at h
  split at h
  · split at h
    · cases h
    · next hdir hn =>
      cases h
      exact ⟨rfl, hn, find?_setFile content hdir hn⟩
  · cases h

theorem puts_place {p : FilePath} {content : ByteArray} (h : t.place p content = .ok t') :
    Puts p.location content t t' := by
  rw [place] at h
  split at h
  · cases h
  · split at h
    · cases h
    · next n above hnames =>
      have hp : p.names = above.reverse ++ [n] := by
        rw [← List.reverse_reverse p.names, hnames, List.reverse_cons]
      cases hdir : t.follow [] above.reverse with
      | error f => rw [hdir] at h; cases h
      | ok dir =>
        rw [hdir] at h
        simp only [bind, Except.bind] at h
        split at h
        · cases h
        · split at h
          · cases h
          · next hname =>
            rw [Bool.or_eq_true, not_or, decide_eq_true_iff, decide_eq_true_iff] at hname
            have hlocation : p.location = n :: dir := by
              rw [FilePath.location, hp, List.foldl_append, follow_eq_ok hdir, List.foldl_cons,
                List.foldl_nil, enter_of_ne dir hname.1 hname.2]
            rw [hlocation]
            split at h
            · cases h
            · split at h
              · cases h
              · exact puts_placeIn h

/-- The ways that a write can go. -/
inductive Writes (t : Tree) (p : FilePath) (content : ByteArray) : Except WriteFault Unit → Tree → Prop where
  /-- The directory cannot be made. -/
  | unmade {f : Fault} {t₁ : Tree} : t.makeDirectories p.directory = (.error f, t₁) →
    Writes t p content (.error ⟨p.directory, f⟩) t₁
  /-- The directory has no room for a temporary file. -/
  | cramped {t₁ : Tree} : t.makeDirectories p.directory = (.ok (), t₁) →
    p.directory.hasNoRoom t.start = true → Writes t p content (.error ⟨p, .nameTooLong⟩) t₁
  /-- The file cannot have its path. -/
  | unplaced {f : Fault} {t₁ : Tree} : t.makeDirectories p.directory = (.ok (), t₁) →
    p.directory.hasNoRoom t.start = false → t₁.place p content = .error f → Writes t p content (.error ⟨p, f⟩) t₁
  | placed {t₁ t₂ : Tree} : t.makeDirectories p.directory = (.ok (), t₁) →
    p.directory.hasNoRoom t.start = false → t₁.place p content = .ok t₂ → Writes t p content (.ok ()) t₂

theorem writes (t : Tree) (p : FilePath) (content : ByteArray) :
    t.Writes p content (t.write p content).1 (t.write p content).2 := by
  rw [write]
  split
  · next hmake => exact .unmade hmake
  · next hmake =>
    split_ifs with hroom
    · exact .cramped hmake hroom
    · split
      · next hplace => exact .unplaced hmake (Bool.eq_false_iff.mpr hroom) hplace
      · next hplace => exact .placed hmake (Bool.eq_false_iff.mpr hroom) hplace

theorem writes_of_write_eq {p : FilePath} {content : ByteArray} {r : Except WriteFault Unit}
    (h : t.write p content = (r, t')) : t.Writes p content r t' := by
  have hwrites := t.writes p content
  rwa [h] at hwrites

theorem write_cases (t : Tree) (p : FilePath) (content : ByteArray) :
    ∃ t₁, Grows p.Passes t t₁ ∧ ((∃ f, t.write p content = (.error f, t₁)) ∨
      ∃ t₂, Puts p.location content t₁ t₂ ∧ t.write p content = (.ok (), t₂)) := by
  have hgrows : ∀ {r : Except Fault Unit} {t₁ : Tree}, t.makeDirectories p.directory = (r, t₁) →
      Grows p.Passes t t₁ := fun hmake =>
    (grows_of_makeDirectories hmake).mono fun _ => FilePath.passes_of_through_directory
  obtain ⟨r, t', hwrite⟩ : ∃ r t', t.write p content = (r, t') := ⟨_, _, rfl⟩
  cases writes_of_write_eq hwrite with
  | unmade hmake => exact ⟨_, hgrows hmake, .inl ⟨_, hwrite⟩⟩
  | cramped hmake hroom => exact ⟨_, hgrows hmake, .inl ⟨_, hwrite⟩⟩
  | unplaced hmake hroom hplace => exact ⟨_, hgrows hmake, .inl ⟨_, hwrite⟩⟩
  | placed hmake hroom hplace => exact ⟨_, hgrows hmake, .inr ⟨_, puts_place hplace, hwrite⟩⟩

theorem start_write (t : Tree) (p : FilePath) (content : ByteArray) :
    (t.write p content).2.start = t.start := by
  obtain ⟨t₁, hgrows, ⟨f, h⟩ | ⟨t₂, hputs, h⟩⟩ := write_cases t p content
  · rw [h]
    exact hgrows.start_eq
  · rw [h]
    exact hputs.start_eq.trans hgrows.start_eq

end Tree

end OpHeaders.Files
