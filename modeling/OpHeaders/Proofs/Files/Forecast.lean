import OpHeaders.Proofs.Files.Reading

/-! What a write to a plain path comes to, told from the tree before it. The directories on the
way are made up to the first file or overlong name there; then it depends on the entry at the
end alone whether the file is put there. So nothing else in the tree has a part in it. -/
namespace OpHeaders.Files

namespace Tree

variable {t t' : Tree} {here l : Location} {n : String} {ns : List String}

/-! ### The way -/

/-- What keeps a name from leading further. -/
def obstacle? (t : Tree) (here : Location) (n : String) (isLast : Bool) : Option Fault :=
  if FilePath.isTooLong n then some .nameTooLong
  else if (t.content? (n :: here)).isSome then some (if isLast then .exists else .notDirectory)
  else none

/-- How far names lead before an obstacle, and the obstacle. -/
def survey (t : Tree) (here : Location) : List String → Except Fault Unit × List Location
  | [] => (.ok (), [])
  | n :: ns => match t.obstacle? here n ns.isEmpty with
    | some f => (.error f, [])
    | none => ((t.survey (n :: here) ns).1, (n :: here) :: (t.survey (n :: here) ns).2)

theorem obstacle?_eq_none_iff {isLast : Bool} :
    t.obstacle? here n isLast = none ↔ FilePath.isTooLong n = false ∧ t.content? (n :: here) = none := by
  unfold obstacle?
  cases t.content? (n :: here) <;> cases FilePath.isTooLong n <;> simp

theorem survey_congr (h : ∀ ms, ms <+: ns → ms ≠ [] →
    t'.content? (ms.reverse ++ here) = t.content? (ms.reverse ++ here)) :
    t'.survey here ns = t.survey here ns := by
  induction ns generalizing here with
  | nil => rfl
  | cons n ns ih =>
    have hn : t'.content? (n :: here) = t.content? (n :: here) :=
      h [n] (List.cons_prefix_cons.2 ⟨rfl, List.nil_prefix⟩) (List.cons_ne_nil n [])
    have hrest : t'.survey (n :: here) ns = t.survey (n :: here) ns := ih fun ms hms _ => by
      simpa using h (n :: ms) (List.cons_prefix_cons.2 ⟨rfl, hms⟩) (List.cons_ne_nil n ms)
    rw [survey, survey, obstacle?, hn, hrest, ← obstacle?]

theorem exists_of_mem_survey (h : l ∈ (t.survey here ns).2) :
    ∃ ms, ms <+: ns ∧ ms ≠ [] ∧ l = ms.reverse ++ here := by
  induction ns generalizing here with
  | nil => cases h
  | cons n ns ih =>
    rw [survey] at h
    split at h
    · cases h
    · rcases List.mem_cons.1 h with rfl | h
      · exact ⟨[n], List.cons_prefix_cons.2 ⟨rfl, List.nil_prefix⟩, List.cons_ne_nil n [], rfl⟩
      · obtain ⟨ms, hms, -, rfl⟩ := ih h
        exact ⟨n :: ms, List.cons_prefix_cons.2 ⟨rfl, hms⟩, List.cons_ne_nil n ms, by simp⟩

theorem isPrefix_of_location_mem_survey {q : FilePath} (hq : q.IsPlain)
    (h : q.location ∈ (t.survey [] ns).2) : q.names <+: ns := by
  obtain ⟨ms, hms, -, heq⟩ := exists_of_mem_survey h
  rw [hq.location_eq, List.append_nil, List.reverse_inj] at heq
  rwa [heq]

theorem survey_cons_ok (h : (t.survey here (n :: ns)).1 = .ok ()) :
    FilePath.isTooLong n = false ∧ (t.survey (n :: here) ns).1 = .ok () ∧
      (t.survey here (n :: ns)).2 = (n :: here) :: (t.survey (n :: here) ns).2 := by
  rw [survey] at h ⊢
  split at h
  · cases h
  · next hn => exact ⟨(obstacle?_eq_none_iff.1 hn).1, h, rfl⟩

/-- Without an obstacle the names lead all the way. -/
theorem mem_survey_of_ok (h : (t.survey here ns).1 = .ok ()) {ms : List String} (hms : ms <+: ns)
    (hne : ms ≠ []) : ms.reverse ++ here ∈ (t.survey here ns).2 := by
  induction ns generalizing here ms with
  | nil => exact absurd (List.prefix_nil.1 hms) hne
  | cons n ns ih =>
    obtain ⟨-, hrest, hmade⟩ := survey_cons_ok h
    obtain ⟨m, ms, rfl⟩ := List.exists_cons_of_ne_nil hne
    obtain ⟨hm, hprefix⟩ := List.cons_prefix_cons.1 hms
    rw [hm, hmade]
    by_cases hmore : ms = []
    · rw [hmore]
      exact List.mem_cons_self
    · have hmem := ih hrest hprefix hmore
      refine List.mem_cons_of_mem _ ?_
      simpa using hmem

theorem isTooLong_of_survey_ok (h : (t.survey here ns).1 = .ok ()) :
    ∀ n ∈ ns, FilePath.isTooLong n = false := by
  induction ns generalizing here with
  | nil => exact fun n hn => absurd hn List.not_mem_nil
  | cons n ns ih =>
    obtain ⟨hn, hrest, -⟩ := survey_cons_ok h
    exact List.forall_mem_cons.2 ⟨hn, ih hrest⟩

/-- The directories on the way are made as far as the names lead. On fresh ground there is
nothing that could stop them but a name. -/
theorem makeAlong_eq (fresh : Bool) (hns : ∀ n ∈ ns, n ≠ "." ∧ n ≠ "..") (hhere : t.IsDirectory here)
    (hfresh : fresh = true → ∀ n, t.find? (n :: here) = none) :
    (t.makeAlong fresh here ns).1 = (t.survey here ns).1 ∧
    ∀ l, (t.makeAlong fresh here ns).2.entries[l]? =
      if l ∈ (t.survey here ns).2 then some .directory else t.entries[l]? := by
  induction ns generalizing t fresh here with
  | nil => exact ⟨rfl, fun l => rfl⟩
  | cons n ns ih =>
    rw [List.forall_mem_cons] at hns
    rw [makeAlong, if_neg hns.1.1, if_neg hns.1.2, survey, obstacle?]
    by_cases hlong : FilePath.isTooLong n = true
    · rw [if_pos hlong, if_pos hlong]
      exact ⟨rfl, fun l => rfl⟩
    rw [if_neg hlong, if_neg hlong]
    cases he : t.find? (n :: here) with
    | some e =>
      have hold : fresh = false := by
        by_contra hfresh'
        have hnone := hfresh (by simpa using hfresh') n
        rw [he] at hnone
        cases hnone
      cases e with
      | directory =>
        have hcontent : t.content? (n :: here) = none := content?_eq_none he
        obtain ⟨hresult, hentries⟩ := ih fresh hns.2 he (fun h => by rw [hold] at h; cases h)
        rw [hcontent]
        refine ⟨hresult, fun l => (hentries l).trans ?_⟩
        by_cases hl : l = n :: here
        · subst hl
          have hentry : t.entries[n :: here]? = some .directory := he
          simp [hentry]
        · simp [hl]
      | file content =>
        have hcontent : t.content? (n :: here) = some content := content?_eq_some_iff.2 he
        rw [hcontent, hold]
        exact ⟨by simp, fun l => rfl⟩
    | none =>
      have hcontent : t.content? (n :: here) = none := by rw [content?, he]
      have hgrows := grows_addDirectory hhere he
      have hsurvey : (t.addDirectory n here hhere).survey (n :: here) ns = t.survey (n :: here) ns :=
        survey_congr fun ms _ _ => hgrows.content?_eq _
      have hmade : (t.addDirectory n here hhere).IsDirectory (n :: here) := by
        rw [IsDirectory, find?_addDirectory, if_pos rfl]
      have hempty : ∀ m, (t.addDirectory n here hhere).find? (m :: n :: here) = none := fun m => by
        rw [find?_addDirectory, if_neg (by simp)]
        exact find?_append_eq_none he [m]
      obtain ⟨hresult, hentries⟩ := ih true hns.2 hmade (fun _ => hempty)
      rw [hsurvey] at hresult hentries
      simp only [dif_pos hhere]
      rw [hcontent]
      refine ⟨hresult, fun l => (hentries l).trans ?_⟩
      rw [entries_addDirectory]
      by_cases hl : l = n :: here
      · simp [hl]
      · simp [hl]

/-! ### The write -/

/-- Why a file is not put at a path whose directories exist. -/
def refusal? (t : Tree) (p : FilePath) : Option Fault :=
  match p.fault? with
  | some f => some f
  | none =>
    if FilePath.isTooLong (p.names.getLastD "") then some .nameTooLong
    else if t.IsDirectory p.location then some .isDirectory
    else none

theorem refusal?_congr {p : FilePath} (h : t'.IsDirectory p.location ↔ t.IsDirectory p.location) :
    t'.refusal? p = t.refusal? p := by
  rw [refusal?, refusal?]
  simp only [h]

/-- What a write comes to and the directories that it makes if they are missing. -/
def forecast (t : Tree) (p : FilePath) : Except WriteFault Unit × List Location :=
  match p.directory.fault?, t.survey [] p.names.dropLast with
  | some f, _ => (.error ⟨p.directory, f⟩, [])
  | none, (.error f, ls) => (.error ⟨p.directory, f⟩, ls)
  | none, (.ok (), ls) =>
    if p.directory.hasNoRoom t.start then (.error ⟨p, .nameTooLong⟩, ls)
    else match t.refusal? p with
      | some f => (.error ⟨p, f⟩, ls)
      | none => (.ok (), ls)

section Write

variable {p : FilePath} (content : ByteArray)

theorem makeDirectories_of_fault {f : Fault} (h : p.fault? = some f) (t : Tree) :
    t.makeDirectories p = (.error f, t) := by
  rw [makeDirectories, h]

theorem makeDirectories_directory (hp : p.IsFile) (h : p.directory.fault? = none) (t : Tree) :
    t.makeDirectories p.directory = t.makeAlong false [] p.names.dropLast := by
  obtain ⟨d, n, hd, hn, rfl⟩ := hp
  rw [makeDirectories, h, FilePath.directory_join hd hn, FilePath.names_join hd hn, List.dropLast_concat]
  by_cases hne : d.text = ""
  · have hdot : (FilePath.mk ".").names = ["."] := by decide +kernel
    rw [if_pos hne, FilePath.names_of_text_eq hne, hdot]
    rfl
  · rw [if_neg hne]

/-- Where the directories exist, it is the entry at the end that decides. -/
theorem place_eq (hp : p.IsFile) (hdir : ∀ ms, ms <+: p.names.dropLast → t.IsDirectory ms.reverse)
    (hshort : ∀ n ∈ p.names.dropLast, FilePath.isTooLong n = false) :
    match t.place p content with
    | .error f => t.refusal? p = some f
    | .ok t' => t.refusal? p = none ∧
        ∀ l, t'.entries[l]? = if l = p.location then some (.file content) else t.entries[l]? := by
  obtain ⟨d, n, hd, hn, rfl⟩ := hp
  have hnames := FilePath.names_join hd hn
  have hplain := FilePath.isPlain_join hd hn
  have hlocation : (d.join ⟨n⟩).location = n :: d.names.reverse := by
    rw [hplain.location_eq, hnames]
    simp
  rw [hnames, List.dropLast_concat] at hdir hshort
  have hfollow : t.follow [] d.names = .ok d.names.reverse := by
    have hway : ∀ ms, ms <+: d.names → t.IsDirectory (ms.reverse ++ []) := by simpa using hdir
    simpa using follow_of_isDirectory hd.ne_of_mem_names hshort hway
  have hlast : t.IsDirectory d.names.reverse := hdir d.names (List.prefix_refl _)
  have hname : ¬(decide (n = ".") || decide (n = "..")) = true := by
    simp [hn.ne_dot, hn.ne_up]
  have hsplit : (d.names ++ [n]).reverse = n :: d.names.reverse := by simp
  have hend : (d.names ++ [n]).getLastD "" = n := by simp [List.getLastD_eq_getLast?]
  rw [place, refusal?]
  cases hfault : (d.join ⟨n⟩).fault? with
  | some f => rfl
  | none =>
    simp only [hnames, hsplit, hend, List.reverse_reverse, hfollow, bind, Except.bind,
      if_neg (not_not_intro hlast), if_neg hname, hplain.endsInSlash_eq, hlocation]
    by_cases hlong : FilePath.isTooLong n = true
    · simp [hlong]
    · by_cases hthere : t.IsDirectory (n :: d.names.reverse)
      · simp [hlong, placeIn, hlast, hthere]
      · simp [hlong, placeIn, hlast, hthere, entries_setFile]

/-- A path does not lie on the way to its directory. -/
theorem location_not_mem_survey (hp : p.IsFile) (t : Tree) :
    p.location ∉ (t.survey [] p.names.dropLast).2 := by
  intro h
  have hle := (isPrefix_of_location_mem_survey hp.isPlain h).length_le
  have hpos := List.length_pos_iff.2 hp.names_ne_nil
  rw [List.length_dropLast] at hle
  omega

/-- Once the way is made, it is the entry that the end had before that decides. -/
theorem place_of_survey (hp : p.IsFile) {ls : List Location}
    (hsurvey : t.survey [] p.names.dropLast = (.ok (), ls))
    (hmade : ∀ l, t'.entries[l]? = if l ∈ ls then some .directory else t.entries[l]?) :
    match t'.place p content with
    | .error f => t.refusal? p = some f
    | .ok t'' => t.refusal? p = none ∧ ∀ l, t''.entries[l]? =
        if l = p.location then some (.file content) else if l ∈ ls then some .directory else t.entries[l]? := by
  have hok : (t.survey [] p.names.dropLast).1 = .ok () := by rw [hsurvey]
  have hdir : ∀ ms, ms <+: p.names.dropLast → t'.IsDirectory ms.reverse := fun ms hms => by
    by_cases hne : ms = []
    · rw [hne]
      rfl
    · have hmem := mem_survey_of_ok hok hms hne
      rw [hsurvey, List.append_nil] at hmem
      exact isDirectory_iff.2 (.inr (by rw [hmade, if_pos hmem]))
  have hrefusal : t'.refusal? p = t.refusal? p := by
    have hnot := location_not_mem_survey hp t
    rw [hsurvey] at hnot
    exact refusal?_congr (by rw [isDirectory_iff, isDirectory_iff, hmade, if_neg hnot])
  have hplace := place_eq content hp hdir (isTooLong_of_survey_ok hok)
  simp only [hrefusal, hmade] at hplace
  exact hplace

/-- A write gives what was forecast. -/
theorem write_eq (hp : p.IsFile) (t : Tree) :
    (t.write p content).1 = (t.forecast p).1 ∧
    ∀ l, (t.write p content).2.entries[l]? =
      if (t.forecast p).1.isOk ∧ l = p.location then some (.file content)
      else if l ∈ (t.forecast p).2 then some .directory
      else t.entries[l]? := by
  cases hfault : p.directory.fault? with
  | some f =>
    simp only [write, makeDirectories_of_fault hfault, forecast, hfault]
    exact ⟨trivial, fun l => by simp [Except.isOk, Except.toBool]⟩
  | none =>
    have hroot : t.IsDirectory [] := rfl
    have hplain : ∀ n ∈ p.names.dropLast, n ≠ "." ∧ n ≠ ".." := fun n hn =>
      hp.isPlain.ne_of_mem_names n (List.dropLast_subset _ hn)
    obtain ⟨hresult, hmade⟩ := makeAlong_eq false hplain hroot fun hfresh => absurd hfresh Bool.false_ne_true
    rcases hmake : t.makeAlong false [] p.names.dropLast with ⟨r, t₁⟩
    rcases hsurvey : t.survey [] p.names.dropLast with ⟨r', ls⟩
    rw [hmake, hsurvey] at hresult hmade
    obtain rfl : r = r' := hresult
    simp only [write, makeDirectories_directory hp hfault, hmake, forecast, hfault, hsurvey]
    cases r with
    | error f => exact ⟨rfl, fun l => by simp [Except.isOk, Except.toBool, hmade]⟩
    | ok =>
      by_cases hroom : p.directory.hasNoRoom t.start = true
      · simp only [if_pos hroom]
        exact ⟨trivial, fun l => by simp [Except.isOk, Except.toBool, hmade]⟩
      · simp only [if_neg hroom]
        have hplace := place_of_survey content hp hsurvey hmade
        cases hput : t₁.place p content with
        | error f =>
          rw [hput] at hplace
          simp only [hplace]
          exact ⟨trivial, fun l => by simp [Except.isOk, Except.toBool, hmade]⟩
        | ok t₂ =>
          rw [hput] at hplace
          simp only [hplace.1]
          exact ⟨trivial, fun l => by simp [Except.isOk, Except.toBool, hplace.2]⟩

end Write

end Tree

end OpHeaders.Files
