import OpHeaders.Proofs.Files.Directory
import OpHeaders.Proofs.Files.Reading

/-! A write by way of a temporary file in the same directory. Nobody sees that file in the end: it gets the
path it was made for or is taken away, and what remains is what a write at once would have left. -/
namespace OpHeaders.Files

/-- What a location is made of. -/
theorem mem_of_mem_foldl_enter {here : Location} {ns : List String} {n : String} (h : n ∈ ns.foldl enter here) :
    n ∈ here ∨ n ∈ ns := by
  induction ns generalizing here with
  | nil => exact .inl h
  | cons m ns ih =>
    rcases ih h with h | h
    · rw [enter] at h
      split_ifs at h
      · exact .inl h
      · exact .inl (List.mem_of_mem_tail h)
      · rcases List.mem_cons.mp h with rfl | h
        · exact .inr List.mem_cons_self
        · exact .inl h
    · exact .inr (List.mem_cons_of_mem m h)

theorem not_mem_location {p : FilePath} {n : String} (h : n ∉ p.names) : n ∉ p.location := fun hn =>
  (mem_of_mem_foldl_enter hn).elim List.not_mem_nil h

namespace Tree

/-- Gives another path to a file, in the place of any file there. -/
def rename (t : Tree) (old : Location) (p : FilePath) : Except Fault Tree :=
  match t.content? old with
  | none => .error .notFound
  | some content => (t.place p content).map fun t' => if p.location = old then t' else t'.removeAt old

/-- A write step by step. The content goes to a file of another name in the same directory; this file
gets its path when it is complete, and is taken away if it does not get it. -/
def writeBy (t : Tree) (temporary : String) (p : FilePath) (content : ByteArray) :
    Except WriteFault Unit × Tree :=
  match t.makeDirectories p.directory with
  | (.error f, made) => (.error ⟨p.directory, f⟩, made)
  | (.ok (), made) =>
    if p.directory.hasNoRoom t.start then (.error ⟨p, .nameTooLong⟩, made)
    else match made.placeIn p.directory.location temporary content with
      | .error f => (.error ⟨p, f⟩, made)
      | .ok t => match t.rename (temporary :: p.directory.location) p with
        | .error f => (.error ⟨p, f⟩, t.removeAt (temporary :: p.directory.location))
        | .ok t => (.ok (), t)

variable {t t' : Tree} {p : FilePath} {here dir l : Location} {ns : List String} {n : String}
  {content : ByteArray}

/-! ### A name that no path has -/

/-- Names are followed alike where entries differ only under a name that is not among them. -/
theorem follow_agree (h : ∀ l, n ∉ l → t'.find? l = t.find? l) (hhere : n ∉ here) (hns : n ∉ ns) :
    t'.follow here ns = t.follow here ns := by
  induction ns generalizing here with
  | nil => rfl
  | cons m ns ih =>
    rw [List.mem_cons, not_or] at hns
    have hdir : t'.IsDirectory here ↔ t.IsDirectory here := by rw [IsDirectory, IsDirectory, h here hhere]
    have htail : n ∉ here.tail := fun hn => hhere (List.mem_of_mem_tail hn)
    have hnext : n ∉ m :: here := by simp [hns.1, hhere]
    simp only [follow, hdir, h _ hnext, ih hhere hns.2, ih htail hns.2, ih hnext hns.2]

/-- So a file can be put at a path in both trees or for the same reason in none. -/
theorem place_agree (h : ∀ l, n ∉ l → t'.find? l = t.find? l) (hp : n ∉ p.names) (content : ByteArray) :
    (∃ f, t'.place p content = .error f ∧ t.place p content = .error f) ∨
      ∃ u' u, t'.place p content = .ok u' ∧ t.place p content = .ok u := by
  have hdir : ∀ l, n ∉ l → (t'.IsDirectory l ↔ t.IsDirectory l) := fun l hl => by
    rw [IsDirectory, IsDirectory, h l hl]
  rw [place, place]
  cases p.fault? with
  | some f => exact .inl ⟨f, rfl, rfl⟩
  | none =>
    cases hnames : p.names.reverse with
    | nil => exact .inl ⟨_, rfl, rfl⟩
    | cons m above =>
      have hmem : ∀ k ∈ m :: above, k ∈ p.names := fun k hk => List.mem_reverse.mp (hnames ▸ hk)
      have habove : n ∉ above.reverse := fun hn =>
        hp (hmem n (List.mem_cons_of_mem m (List.mem_reverse.mp hn)))
      dsimp only
      rw [follow_agree h List.not_mem_nil habove]
      cases hfollow : t.follow [] above.reverse with
      | error f => exact .inl ⟨f, rfl, rfl⟩
      | ok dir =>
        have hn : n ∉ dir := fun hn => by
          rw [← follow_eq_ok hfollow] at hn
          exact (mem_of_mem_foldl_enter hn).elim List.not_mem_nil habove
        have hm : n ∉ m :: dir := by
          rw [List.mem_cons, not_or]
          exact ⟨fun heq => hp (hmem n (heq ▸ List.mem_cons_self)), hn⟩
        simp only [bind, Except.bind, placeIn, hdir dir hn, hdir _ hm]
        split_ifs
        all_goals first | exact .inl ⟨_, rfl, rfl⟩ | exact .inr ⟨_, _, rfl, rfl⟩

/-- Making the directory does not make anything under a name that is not in the path. -/
theorem find?_makeDirectories_eq_none (hp : n ∉ p.names) (h : t.find? (n :: l) = none) :
    (t.makeDirectories p.directory).2.find? (n :: l) = none := by
  rcases (grows_makeDirectories t p.directory).find?_eq (n :: l) with heq | ⟨-, -, hthrough⟩
  · exact heq.trans h
  · obtain ⟨ms, hms, hl⟩ := FilePath.passes_of_through_directory hthrough
    have hmem : n ∈ ms.foldl enter [] := hl ▸ List.mem_cons_self
    have hnames : ms ⊆ p.names := (hms.trans (List.dropLast_prefix _)).subset
    exact absurd (hnames ((mem_of_mem_foldl_enter hmem).resolve_left List.not_mem_nil)) hp

/-! ### Taking away -/

theorem entries_removeAt (t : Tree) (l k : Location) :
    (t.removeAt l).entries[k]? = if l <:+ k then none else t.entries[k]? := by
  rw [removeAt, Std.ExtTreeMap.getElem?_filter']
  by_cases hk : l <:+ k
  · have hbelow : l.isSuffixOf k = true := List.isSuffixOf_iff_suffix.mpr hk
    simp [hk, hbelow]
  · have hapart : l.isSuffixOf k = false := Bool.eq_false_iff.mpr (mt List.isSuffixOf_iff_suffix.mp hk)
    rw [if_neg hk]
    simp only [hapart, Bool.not_false]
    cases t.entries[k]? <;> rfl

/-- What is missing has nothing below it. -/
theorem entries_eq_none_of_suffix {k : Location} (h : t.find? (n :: l) = none) (hk : n :: l <:+ k) :
    t.entries[k]? = none := by
  obtain ⟨above, rfl⟩ := hk
  have hnone : t.find? (above ++ n :: l) = none := find?_append_eq_none h above
  cases above with
  | nil => exact hnone
  | cons m above => exact hnone

/-! ### The temporary file -/

/-- The second tree has one file more. -/
structure Stages (l : Location) (content : ByteArray) (t t' : Tree) : Prop where
  start_eq : t'.start = t.start
  free : t.find? l = none
  entries_eq : ∀ k : Location, t'.entries[k]? = if k = l then some (.file content) else t.entries[k]?

theorem exists_stages (hdir : t.IsDirectory dir) (hfree : t.find? (n :: dir) = none) (content : ByteArray) :
    ∃ t', t.placeIn dir n content = .ok t' ∧ Stages (n :: dir) content t t' := by
  have hnew : ¬t.IsDirectory (n :: dir) := fun h => by
    rw [IsDirectory, hfree] at h
    cases h
  refine ⟨t.setFile n dir content hdir hnew, ?_, rfl, hfree, entries_setFile content hdir hnew⟩
  rw [placeIn, dif_pos hdir, dif_neg hnew]

namespace Stages

theorem find?_eq (h : Stages (n :: dir) content t t') (l : Location) :
    t'.find? l = if l = n :: dir then some (.file content) else t.find? l := by
  cases l with
  | nil => rfl
  | cons m l => exact h.entries_eq (m :: l)

/-- Without the file and all that would lie below it, the entries are as before. -/
theorem entries_without (h : Stages (n :: dir) content t t') (k : Location) :
    (if n :: dir <:+ k then none else t'.entries[k]?) = t.entries[k]? := by
  rw [h.entries_eq]
  split_ifs with hbelow heq
  · exact (entries_eq_none_of_suffix h.free hbelow).symm
  · exact absurd (heq ▸ List.suffix_refl _) hbelow
  · rfl

/-- Taken away, the file leaves no trace. -/
theorem removeAt_eq (h : Stages (n :: dir) content t t') : t'.removeAt (n :: dir) = t := by
  have hstart : (t'.removeAt (n :: dir)).start = t.start := h.start_eq
  apply ext_entries hstart
  intro k
  rw [entries_removeAt, h.entries_without]

/-- Renamed, the file stands where it would have been put at once. -/
theorem rename_eq (h : Stages (n :: dir) content t t') (hp : n ∉ p.names) :
    t'.rename (n :: dir) p = t.place p content := by
  have hcontent : t'.content? (n :: dir) = some content := by
    rw [content?_eq_some_iff, h.find?_eq, if_pos rfl]
  have hagree : ∀ l, n ∉ l → t'.find? l = t.find? l := fun l hl => by
    rw [h.find?_eq, if_neg (by rintro rfl; exact hl List.mem_cons_self)]
  have hn := not_mem_location hp
  have hother : p.location ≠ n :: dir := fun heq => hn (heq ▸ List.mem_cons_self)
  simp only [rename, hcontent]
  rcases place_agree hagree hp content with ⟨f, hplace', hplace⟩ | ⟨u', u, hplace', hplace⟩
  · rw [hplace', hplace]
    rfl
  · rw [hplace', hplace, Except.map, if_neg hother]
    congr 1
    have hstart : (u'.removeAt (n :: dir)).start = u.start := calc
      u'.start = t'.start := (puts_place hplace').start_eq
      _ = t.start := h.start_eq
      _ = u.start := (puts_place hplace).start_eq.symm
    apply ext_entries hstart
    intro k
    rw [entries_removeAt, entries_of_place hplace', entries_of_place hplace]
    by_cases hk : k = p.location
    · subst hk
      have hapart : ¬n :: dir <:+ p.location := fun hbelow => hn (hbelow.subset List.mem_cons_self)
      rw [if_neg hapart, if_pos rfl, if_pos rfl]
    · rw [if_neg hk, if_neg hk, h.entries_without]

end Stages

/-- A write by way of a file whose name is free comes to the same as a write at once. -/
theorem writeBy_eq {temporary : String} (hp : temporary ∉ p.names)
    (hfree : t.find? (temporary :: p.directory.location) = none) (content : ByteArray) :
    t.writeBy temporary p content = t.write p content := by
  have hfree₁ := find?_makeDirectories_eq_none hp hfree
  rw [writeBy, write]
  rcases hmake : t.makeDirectories p.directory with ⟨f | ⟨⟩, t₁⟩
  · rfl
  · rw [hmake] at hfree₁
    obtain ⟨staged, hplace, hstages⟩ := exists_stages (follow_of_makeDirectories hmake).2 hfree₁ content
    have hrename := hstages.rename_eq hp
    cases p.directory.hasNoRoom t.start with
    | true => simp only [if_true]
    | false =>
      cases hput : t₁.place p content with
      | error f => simp only [hplace, hrename, hput, hstages.removeAt_eq, Bool.false_eq_true, if_false]
      | ok t₂ => simp only [hplace, hrename, hput, Bool.false_eq_true, if_false]

end Tree

end OpHeaders.Files
