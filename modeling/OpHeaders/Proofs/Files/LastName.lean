import OpHeaders.Proofs.Files.Rewriting

/-! The name at the end of a path. A header has the extension `h` there, whatever stands in
front of it. A path that is read as a file ends in a name, which is neither `.` nor `..`, and
this name ends the text of the path too. So a file whose path does not end in `.h` is not at a
place for a header, and no header is written over it. -/
namespace OpHeaders.Files

/-- What the names of headers end in. -/
def headerEnd : List Char := ['.', 'h']

/-- A place for a header. -/
def IsHeader (l : Location) : Prop := ∃ n k, l = n :: k ∧ headerEnd <:+ n.toList

namespace FilePath

variable {p : FilePath}

theorem isSuffix_join (p q : FilePath) : q.text.toList <:+ (p.join q).text.toList := by
  rw [join]
  split_ifs
  · exact List.suffix_refl _
  · simp
  · exact ⟨p.text.toList ++ ['/'], by simp⟩

/-! ### The last piece -/

/-- The last piece stands behind the last slash: what ends the path without a slash, ends it. -/
theorem exists_pieces_eq (p : FilePath) : ∃ above last, p.pieces = above ++ [last] ∧
    last <:+ p.text.toList ∧ ∀ s, s <:+ p.text.toList → '/' ∉ s → s <:+ last := by
  by_cases hslash : '/' ∈ p.text.toList
  · -- the last slash is the first one from behind
    obtain ⟨b, a, hsplit, hb⟩ := List.eq_append_cons_of_mem (List.mem_reverse.mpr hslash)
    have htext : p.text.toList = a.reverse ++ '/' :: b.reverse := by
      rw [← List.reverse_reverse p.text.toList, hsplit]
      simp
    have hb : '/' ∉ b.reverse := by simpa using hb
    refine ⟨Text.split '/' a.reverse, b.reverse, ?_, ?_, ?_⟩
    · rw [pieces, htext, Text.split_append_cons, Text.split_of_not_mem hb]
    · rw [htext]
      exact ⟨a.reverse ++ ['/'], by simp⟩
    · intro s hs hnot
      rw [htext] at hs
      rcases List.suffix_or_suffix_of_suffix hs (List.suffix_append a.reverse _) with hs | hs
      · rcases List.suffix_cons_iff.mp hs with rfl | hs
        · simp at hnot
        · exact hs
      · exact absurd (hs.subset List.mem_cons_self) hnot
  · refine ⟨[], p.text.toList, ?_, List.suffix_refl _, fun s hs _ => hs⟩
    rw [pieces, Text.split_of_not_mem hslash, List.nil_append]

/-- The last piece is empty only if the path is empty or ends in a slash. -/
theorem last_ne_nil {last : List Char} (hfault : p.fault? = none) (hslash : p.endsInSlash = false)
    (hends : ∀ s, s <:+ p.text.toList → '/' ∉ s → s <:+ last) : last ≠ [] := by
  rintro rfl
  cases htext : p.text.toList.getLast? with
  | none =>
    have hempty : p.text = "" := by simpa using htext
    simp [fault?, hempty] at hfault
  | some c =>
    obtain ⟨start, hstart⟩ := List.getLast?_eq_some_iff.mp htext
    have hc : c = '/' := by
      by_contra hc
      have hnil := hends [c] ⟨start, hstart.symm⟩ (by simpa using Ne.symm hc)
      simp at hnil
    simp [endsInSlash, htext, hc] at hslash

theorem names_of_pieces_eq {above : List (List Char)} {last : List Char} (h : p.pieces = above ++ [last])
    (hne : last ≠ []) : p.names = namesOf above ++ [String.ofList last] := by
  rw [names_eq, h, namesOf, namesOf, List.filter_append, List.map_append]
  simp [hne]

/-- A name at the end is the innermost one of the location. -/
theorem location_of_names_eq {ns : List String} {n : String} (h : p.names = ns ++ [n]) (h1 : n ≠ ".")
    (h2 : n ≠ "..") : p.location = n :: ns.foldl enter [] := by
  rw [location, h, List.foldl_append, List.foldl_cons, List.foldl_nil, enter_of_ne _ h1 h2]

/-- A path that ends in `.h` leads to a place for a header. -/
theorem isHeader_location (h : headerEnd <:+ p.text.toList) : IsHeader p.location := by
  obtain ⟨above, last, hpieces, -, hends⟩ := p.exists_pieces_eq
  obtain ⟨start, hlast⟩ := hends headerEnd h (by decide)
  have hne : last ≠ [] := by
    rintro rfl
    simp [headerEnd] at hlast
  have hname : (String.ofList last).toList.getLast? = some 'h' := by
    rw [String.toList_ofList, ← hlast]
    simp [headerEnd]
  have hnames := names_of_pieces_eq hpieces hne
  refine ⟨_, _, location_of_names_eq hnames ?_ ?_, ?_⟩
  · intro hdot
    simp [hdot] at hname
  · intro hup
    simp [hup] at hname
  · rw [String.toList_ofList]
    exact ⟨start, hlast⟩

end FilePath

namespace Tree

variable {t : Tree} {p : FilePath} {here l : Location} {ns : List String} {n s : String}

/-! ### Paths to files -/

theorem isDirectory_tail (h : t.IsDirectory l) : t.IsDirectory l.tail := by
  cases l with
  | nil => exact h
  | cons n l => exact isDirectory_iff.mpr (t.rooted n l .directory h)

/-- Names lead to an entry. -/
theorem find?_ne_none_of_follow (h : t.follow here ns = .ok l) (hhere : t.find? here ≠ none) :
    t.find? l ≠ none := by
  induction ns generalizing here with
  | nil =>
    cases h
    exact hhere
  | cons n ns ih =>
    rw [follow] at h
    split at h
    · cases h
    · next hdir =>
      split at h
      · exact ih h hhere
      · split at h
        · refine ih h ?_
          rw [isDirectory_tail (not_not.mp hdir)]
          exact Option.some_ne_none _
        · split at h
          · cases h
          · split at h
            · next he => exact ih h (by simp [he])
            · cases h

/-- Names that end in `.` or `..` lead to directories. -/
theorem isDirectory_of_follow (h : t.follow here (ns ++ [n]) = .ok l) (hn : n = "." ∨ n = "..") :
    t.IsDirectory l := by
  induction ns generalizing here with
  | nil =>
    rw [List.nil_append, follow] at h
    split at h
    · cases h
    · next hhere =>
      have hhere : t.IsDirectory here := not_not.mp hhere
      rcases hn with rfl | rfl
      · cases h
        exact hhere
      · cases h
        exact isDirectory_tail hhere
  | cons m ns ih =>
    rw [List.cons_append, follow] at h
    split at h
    · cases h
    · split at h
      · exact ih h
      · split at h
        · exact ih h
        · split at h
          · cases h
          · split at h
            · exact ih h
            · cases h

theorem read_eq_ok_iff : t.read p = .ok s ↔ ∃ l content, t.locate p = .ok l ∧
    t.content? l = some content ∧ String.fromUTF8? content = some s := by
  rw [read]
  cases hlocate : t.locate p with
  | error f => simp
  | ok l =>
    simp only [Except.ok.injEq, exists_and_left, exists_eq_left', content?]
    cases t.find? l with
    | none => simp
    | some e =>
      cases e with
      | directory => simp
      | file content =>
        simp only [Option.some.injEq, exists_eq_left']
        split
        · next hs => simp [hs]
        · next hs => simp [hs]

theorem locate_eq_ok_iff : t.locate p = .ok l ↔ p.fault? = none ∧
    t.follow [] (if p.endsInSlash then p.names ++ ["."] else p.names) = .ok l := by
  rw [locate]
  cases p.fault? <;> simp

theorem find?_ne_none_of_locate (h : t.locate p = .ok l) : t.find? l ≠ none :=
  find?_ne_none_of_follow (locate_eq_ok_iff.mp h).2 (by simp [find?])

theorem location_eq_of_locate (h : t.locate p = .ok l) : p.location = l := by
  have hl := follow_eq_ok (locate_eq_ok_iff.mp h).2
  split_ifs at hl
  · rw [List.foldl_append] at hl
    exact hl
  · exact hl

/-- What was written as a text is read as this text. -/
theorem read_eq_of_content? (hlocate : t.locate p = .ok l) (hcontent : t.content? l = some s.toUTF8) :
    t.read p = .ok s := by
  refine read_eq_ok_iff.mpr ⟨l, _, hlocate, hcontent, ?_⟩
  rw [String.toUTF8_eq_toByteArray, String.fromUTF8?, dif_pos s.isValidUTF8]
  rfl

/-- Why a file cannot be read. -/
theorem read_eq_error_iff {f : Fault} : t.read p = .error f ↔ t.locate p = .error f ∨
    (∃ l, t.locate p = .ok l ∧ t.IsDirectory l ∧ f = .isDirectory) ∨
    ∃ l content, t.locate p = .ok l ∧ t.content? l = some content ∧ String.fromUTF8? content = none ∧
      f = .notText := by
  rw [read]
  cases hlocate : t.locate p with
  | error f' => simp
  | ok l =>
    simp only [reduceCtorEq, Except.ok.injEq, exists_and_left, exists_eq_left', false_or, content?, IsDirectory]
    cases he : t.find? l with
    | none => exact absurd he (find?_ne_none_of_locate hlocate)
    | some e =>
      cases e with
      | directory => simp [eq_comm]
      | file content =>
        simp only [Option.some.injEq, exists_eq_left', reduceCtorEq, false_and, false_or]
        split
        · next hs => simp [hs]
        · next hs => simp [hs, eq_comm]

/-- A path to a file has a name at its end. -/
theorem exists_names_eq_of_locate (h : t.locate p = .ok l) (hfile : ¬t.IsDirectory l) :
    ∃ ns n, p.names = ns ++ [n] ∧ n ≠ "." ∧ n ≠ ".." ∧ n.toList <:+ p.text.toList := by
  obtain ⟨hfault, hfollow⟩ := locate_eq_ok_iff.mp h
  have hslash : p.endsInSlash = false := by
    by_contra hslash
    rw [Bool.not_eq_false] at hslash
    rw [if_pos hslash] at hfollow
    exact hfile (isDirectory_of_follow hfollow (.inl rfl))
  rw [hslash] at hfollow
  obtain ⟨above, last, hpieces, hends, hmax⟩ := p.exists_pieces_eq
  have hne : last ≠ [] := FilePath.last_ne_nil hfault hslash hmax
  have hnames := FilePath.names_of_pieces_eq hpieces hne
  refine ⟨_, _, hnames, ?_, ?_, ?_⟩
  · intro hdot
    rw [hnames] at hfollow
    exact hfile (isDirectory_of_follow hfollow (.inl hdot))
  · intro hup
    rw [hnames] at hfollow
    exact hfile (isDirectory_of_follow hfollow (.inr hup))
  · rwa [String.toList_ofList]

/-- A file that is read by a path that does not end in `.h` is not at a place for a header. -/
theorem not_isHeader_of_read (hp : ¬headerEnd <:+ p.text.toList) (h : t.read p = .ok s) :
    ¬IsHeader p.location := by
  obtain ⟨l, content, hlocate, hcontent, -⟩ := read_eq_ok_iff.mp h
  have hfile : ¬t.IsDirectory l := by
    intro hdir
    rw [content?_eq_none hdir] at hcontent
    cases hcontent
  obtain ⟨ns, n, hnames, hdot, hup, hends⟩ := exists_names_eq_of_locate hlocate hfile
  rintro ⟨m, k, hlocation, hheader⟩
  rw [FilePath.location_of_names_eq hnames hdot hup] at hlocation
  obtain ⟨rfl, -⟩ := List.cons.inj hlocation
  exact hp (hheader.trans hends)

end Tree

end OpHeaders.Files
