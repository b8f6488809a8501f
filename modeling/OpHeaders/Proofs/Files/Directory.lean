import OpHeaders.Proofs.Files.Keeping

/-! The directory of a path. It has the names that stand before the last one, up to dots, so once
the directory is made the path can be followed to its last name. What is left to see is whether
that is a name for a file, and whether a directory has it already. -/
namespace OpHeaders.Files

namespace FilePath

variable {p : FilePath} {first last : List Char} {above : List (List Char)}

/-- The path can name a file, whatever the tree is. -/
structure NamesFile (p : FilePath) : Prop where
  fault : p.fault? = none
  slash : p.endsInSlash = false
  name : ∃ ns n, p.names = ns ++ [n] ∧ n ≠ "." ∧ n ≠ ".." ∧ isTooLong n = false

/-! ### Names -/

/-- Idle pieces give no names but dots. -/
theorem namesOf_eq_replicate {ps : List (List Char)} (h : ∀ s ∈ ps, isIdle s = true) :
    ∃ k, namesOf ps = List.replicate k "." := by
  refine ⟨_, List.eq_replicate_of_mem fun n hn => ?_⟩
  obtain ⟨s, hs, rfl⟩ := List.mem_map.mp hn
  obtain ⟨hs, hne⟩ := List.mem_filter.mp hs
  have hidle := h s hs
  rw [Bool.not_eq_true'] at hne
  rw [isIdle, hne, Bool.false_or, decide_eq_true_iff] at hidle
  rw [hidle]

theorem namesOf_eq_append_dots (ps : List (List Char)) :
    ∃ k, namesOf ps = namesOf (withoutIdleEnd ps) ++ List.replicate k "." := by
  have hidle : ∀ s ∈ ps.rtakeWhile isIdle, isIdle s = true := fun s hs => List.mem_rtakeWhile_imp hs
  obtain ⟨k, hk⟩ := namesOf_eq_replicate hidle
  refine ⟨k, ?_⟩
  have hsplit : withoutIdleEnd ps ++ ps.rtakeWhile isIdle = ps := List.rdropWhile_append_rtakeWhile
  conv => lhs; rw [← hsplit]
  rw [← hk, namesOf, namesOf, namesOf, List.filter_append, List.map_append]

theorem text_ofPieces_ne {more : List (List Char)} (h : first ≠ [] ∨ more ≠ []) :
    (ofPieces (first :: more)).text ≠ "" := by
  intro hempty
  have hnil : ['/'].intercalate (first :: more) = [] := by simpa [ofPieces] using hempty
  cases more with
  | nil => simp_all [List.intercalate]
  | cons second more => simp [List.intercalate] at hnil

theorem parent?_eq (hpieces : p.pieces = first :: (above ++ [last])) (hidle : ¬isIdle last) :
    p.parent? = some (if first.isEmpty && (withoutIdleEnd above).isEmpty then ⟨"/"⟩
      else ofPieces (first :: withoutIdleEnd above)) := by
  have hmore : withoutIdleEnd (above ++ [last]) = above ++ [last] := List.rdropWhile_concat_neg _ _ _ hidle
  rw [parent?, hpieces]
  simp only [hmore]
  split
  · simp_all
  · rw [List.dropLast_concat]

theorem names_directory (hpieces : p.pieces = first :: (above ++ [last])) (hidle : ¬isIdle last) :
    p.directory.names = namesOf (first :: withoutIdleEnd above) := by
  rw [directory, parent?_eq hpieces hidle]
  by_cases htop : first = [] ∧ withoutIdleEnd above = []
  · simp only [htop.1, htop.2]
    decide +kernel
  · have hcond : (first.isEmpty && (withoutIdleEnd above).isEmpty) = false := by simpa using htop
    have hne := text_ofPieces_ne (not_and_or.mp htop)
    have hslash : ∀ s ∈ first :: withoutIdleEnd above, '/' ∉ s := by
      intro s hs
      apply slash_not_mem_of_mem_pieces (p := p)
      rw [hpieces]
      have hprefix : first :: withoutIdleEnd above <+: first :: (above ++ [last]) :=
        List.cons_prefix_cons.mpr ⟨rfl, (isPrefix_withoutIdleEnd above).trans (List.prefix_append _ _)⟩
      exact hprefix.subset hs
    simp only [hcond, Bool.false_eq_true, if_false, String.isEmpty_iff, hne]
    exact names_ofPieces hslash (List.cons_ne_nil _ _)

/-- Before its last name, the path of a file goes through its directory, and then through nothing but
dots. -/
theorem NamesFile.exists_names_dropLast_eq (h : p.NamesFile) :
    p.names.dropLast = [] ∧ p.directory = ⟨"."⟩ ∨
      ∃ k, p.names.dropLast = p.directory.names ++ List.replicate k "." := by
  obtain ⟨ns, n, hnames, hdot, -, -⟩ := h.name
  obtain ⟨above, last, hpieces, -, hends⟩ := p.exists_pieces_eq
  have hne : last ≠ [] := last_ne_nil h.fault h.slash hends
  have hlast := names_of_pieces_eq hpieces hne
  have hidle : ¬isIdle last := by
    have hn : n = String.ofList last := by
      rw [hnames] at hlast
      exact List.singleton_inj.mp (List.append_inj' hlast rfl).2
    rw [isIdle, Bool.or_eq_true, not_or, List.isEmpty_iff, decide_eq_true_iff]
    refine ⟨hne, ?_⟩
    rintro rfl
    exact hdot hn
  rw [hlast, List.dropLast_concat]
  cases above with
  | nil =>
    refine .inl ⟨rfl, ?_⟩
    rw [directory, parent?, hpieces]
    simp [withoutIdleEnd, hne]
  | cons first above =>
    obtain ⟨k, hk⟩ := namesOf_eq_append_dots above
    refine .inr ⟨k, ?_⟩
    rw [names_directory hpieces hidle, namesOf_cons, hk, ← List.append_assoc, ← namesOf_cons]

end FilePath

namespace Tree

variable {t t' t₁ : Tree} {p : FilePath} {here l : Location} {ns : List String} {n : String}
  {content : ByteArray} {fresh : Bool}

/-! ### Following what was made -/

theorem follow_append (t : Tree) (here : Location) (ns ms : List String) :
    t.follow here (ns ++ ms) = t.follow here ns >>= fun l => t.follow l ms := by
  induction ns generalizing here with
  | nil => rfl
  | cons n ns ih =>
    rw [List.cons_append, follow, follow]
    split_ifs
    · exact ih here
    · exact ih here.tail
    · rfl
    · cases t.find? (n :: here) with
      | none => rfl
      | some e => exact ih (n :: here)
    · rfl

theorem follow_dots (h : t.IsDirectory here) (k : Nat) : t.follow here (List.replicate k ".") = .ok here := by
  induction k with
  | zero => rfl
  | succ k ih => rw [List.replicate_succ, follow, if_neg (not_not_intro h), if_pos rfl, ih]

/-- Directories that were made can be followed. -/
theorem follow_of_makeAlong (h : t.makeAlong fresh here ns = (.ok (), t₁)) (hhere : t.IsDirectory here) :
    t₁.follow here ns = .ok (ns.foldl enter here) ∧ t₁.IsDirectory (ns.foldl enter here) := by
  have hhere₁ : t₁.IsDirectory here := isDirectory_of_makeAlong h hhere
  induction ns generalizing t fresh here with
  | nil => exact ⟨rfl, hhere₁⟩
  | cons n ns ih =>
    rw [follow, if_neg (not_not_intro hhere₁), List.foldl_cons, enter]
    rw [makeAlong] at h
    by_cases hdot : n = "."
    · rw [if_pos hdot] at h
      rw [if_pos hdot, if_pos hdot]
      exact ih h hhere hhere₁
    rw [if_neg hdot] at h
    rw [if_neg hdot, if_neg hdot]
    by_cases hup : n = ".."
    · rw [if_pos hup] at h
      rw [if_pos hup, if_pos hup]
      exact ih h (isDirectory_tail hhere) (isDirectory_tail hhere₁)
    rw [if_neg hup] at h
    rw [if_neg hup, if_neg hup]
    by_cases hlong : FilePath.isTooLong n = true
    · rw [if_pos hlong] at h
      cases h
    rw [if_neg hlong] at h
    rw [if_neg hlong]
    -- whether the directory was there or not, it is there in the end
    have hnext : ∀ {u : Tree} {fresh : Bool}, u.makeAlong fresh (n :: here) ns = (.ok (), t₁) →
        u.IsDirectory (n :: here) → t₁.find? (n :: here) = some .directory ∧
          t₁.follow (n :: here) ns = .ok (ns.foldl enter (n :: here)) ∧
          t₁.IsDirectory (ns.foldl enter (n :: here)) := by
      intro u fresh hmake hdir
      have hdir₁ : t₁.IsDirectory (n :: here) := isDirectory_of_makeAlong hmake hdir
      exact ⟨hdir₁, ih hmake hdir hdir₁⟩
    split at h
    · next hthere =>
      obtain ⟨hdir₁, hfollow⟩ := hnext h hthere
      rw [hdir₁]
      exact hfollow
    · cases h
    · rw [dif_pos hhere] at h
      have hadded : (t.addDirectory n here hhere).IsDirectory (n :: here) := by
        rw [IsDirectory, find?_addDirectory, if_pos rfl]
      obtain ⟨hdir₁, hfollow⟩ := hnext h hadded
      rw [hdir₁]
      exact hfollow

theorem follow_of_makeDirectories (h : t.makeDirectories p = (.ok (), t₁)) :
    t₁.follow [] p.names = .ok p.location ∧ t₁.IsDirectory p.location := by
  rw [makeDirectories] at h
  split at h
  · cases h
  · exact follow_of_makeAlong h rfl

/-- Once its directory is made, the path of a file can be followed up to its last name. -/
theorem follow_names_dropLast (hp : p.NamesFile) (h : t.makeDirectories p.directory = (.ok (), t₁)) :
    t₁.follow [] p.names.dropLast = .ok p.directory.location := by
  obtain ⟨hfollow, hdir⟩ := follow_of_makeDirectories h
  rcases hp.exists_names_dropLast_eq with ⟨hnil, hdot⟩ | ⟨k, hk⟩
  · have hlocation : (FilePath.mk ".").location = [] := by decide +kernel
    rw [hnil, hdot, hlocation]
    rfl
  · rw [hk, follow_append, hfollow]
    exact follow_dots hdir k

/-! ### The file -/

/-- What it takes for a file to be put at a path whose directory was made. -/
theorem exists_place_eq_ok_iff (h : t.makeDirectories p.directory = (.ok (), t₁)) (content : ByteArray) :
    (∃ t₂, t₁.place p content = .ok t₂) ↔ p.NamesFile ∧ ¬t₁.IsDirectory p.location := by
  constructor
  · rintro ⟨t₂, hplace⟩
    obtain ⟨dir, n, hfits, -⟩ := exists_fits_of_place hplace
    obtain ⟨ns, hnames, -⟩ := hfits.names
    have hname : p.NamesFile := ⟨hfits.fault, hfits.slash, ns, n, hnames, hfits.ne_dot, hfits.ne_up, hfits.short⟩
    exact ⟨hname, (puts_place hplace).notDirectory⟩
  · rintro ⟨hp, hfile⟩
    have hfollow := follow_names_dropLast hp h
    obtain ⟨-, hdir⟩ := follow_of_makeDirectories h
    obtain ⟨ns, n, hnames, hdot, hup, hshort⟩ := hp.name
    rw [hnames, List.dropLast_concat] at hfollow
    have hfits : t₁.Fits p p.directory.location n :=
      ⟨hp.fault, hp.slash, hdot, hup, hshort, ns, hnames, hfollow⟩
    rw [hfits.location_eq] at hfile
    exact ⟨_, by rw [place_eq_placeIn hfits hdir, placeIn, dif_pos hdir, dif_neg hfile]⟩

theorem entries_of_place (h : t.place p content = .ok t') (l : Location) :
    t'.entries[l]? = if l = p.location then some (.file content) else t.entries[l]? := by
  obtain ⟨dir, n, hfits, hdir⟩ := exists_fits_of_place h
  have hfile := (puts_place h).notDirectory
  rw [place_eq_placeIn hfits hdir, placeIn, dif_pos hdir, dif_neg (hfits.location_eq ▸ hfile)] at h
  cases h
  rw [entries_setFile, hfits.location_eq]

/-- A file that was put at a path is found there. -/
theorem locate_of_place (h : t.place p content = .ok t') : t'.locate p = .ok p.location := by
  obtain ⟨dir, n, hfits, hdir⟩ := exists_fits_of_place h
  have hputs := puts_place h
  obtain ⟨ns, hnames, hfollow⟩ := (hfits.extends (.of_puts hputs)).names
  have hdir' : t'.IsDirectory dir := (hputs.isDirectory_iff dir).mpr hdir
  have hfile : t'.find? (n :: dir) = some (.file content) := by
    rw [← hfits.location_eq, hputs.find?_eq, if_pos rfl]
  have hlast : t'.follow dir [n] = .ok (n :: dir) := by
    rw [follow, if_neg (not_not_intro hdir'), if_neg hfits.ne_dot, if_neg hfits.ne_up, hfits.short, hfile]
    rfl
  rw [locate_eq_ok_iff, hfits.slash, hnames, hfits.location_eq]
  refine ⟨hfits.fault, ?_⟩
  simp only [Bool.false_eq_true, if_false, follow_append, hfollow]
  exact hlast

end Tree

end OpHeaders.Files
