import OpHeaders.Proofs.Files.Location

/-! Plain paths: relative ones that can be read off without following them. Every name leads
one step down, so a path covers another one if its names come first there, and the
directory of a path has all of its names but the last one. -/
namespace OpHeaders.Files

theorem foldl_enter {ns : List String} (h : ∀ n ∈ ns, n ≠ "." ∧ n ≠ "..") (here : Location) :
    ns.foldl enter here = ns.reverse ++ here := by
  induction ns generalizing here with
  | nil => rfl
  | cons n ns ih =>
    rw [List.forall_mem_cons] at h
    rw [List.foldl_cons, enter_of_ne here h.1.1 h.1.2, ih h.2, List.reverse_cons, List.append_assoc]
    rfl

namespace FilePath

/-- Relative paths without `.`, `..` and empty pieces. The empty path has no pieces. -/
def IsPlain (p : FilePath) : Prop :=
  p.text = "" ∨ ∀ s ∈ p.pieces, s ≠ [] ∧ s ≠ ['.'] ∧ s ≠ ['.', '.']

instance (p : FilePath) : Decidable p.IsPlain :=
  inferInstanceAs (Decidable (_ ∨ ∀ s ∈ p.pieces, s ≠ [] ∧ s ≠ ['.'] ∧ s ≠ ['.', '.']))

/-- Whether the first path is the second one or leads to a place above it. -/
def Covers (p q : FilePath) : Prop := p.names <+: q.names

instance (p q : FilePath) : Decidable (p.Covers q) := inferInstanceAs (Decidable (_ <+: _))

variable {p q : FilePath}

theorem names_of_text_eq (h : p.text = "") : p.names = [] := by
  rw [names, pieces, h]
  rfl

theorem withoutIdleEnd_eq {ps : List (List Char)} (h : ∀ s ∈ ps, isIdle s = false) :
    withoutIdleEnd ps = ps := by
  refine List.rdropWhile_eq_self_iff.2 fun hne => ?_
  rw [h _ (List.getLast_mem hne)]
  exact Bool.false_ne_true

namespace IsPlain

theorem names_eq (h : p.IsPlain) (hne : p.text ≠ "") : p.names = p.pieces.map String.ofList := by
  have hfilter : p.pieces.filter (!·.isEmpty) = p.pieces := List.filter_eq_self.2 fun s hs => by
    simpa using ((h.resolve_left hne) s hs).1
  rw [names, hfilter]

theorem ne_of_mem_names (h : p.IsPlain) : ∀ n ∈ p.names, n ≠ "." ∧ n ≠ ".." := by
  intro n hn
  by_cases hne : p.text = ""
  · rw [names_of_text_eq hne] at hn
    exact absurd hn List.not_mem_nil
  · rw [h.names_eq hne] at hn
    obtain ⟨s, hs, rfl⟩ := List.mem_map.1 hn
    obtain ⟨-, hdot, hup⟩ := (h.resolve_left hne) s hs
    constructor
    · exact fun heq => hdot (by simpa using congrArg String.toList heq)
    · exact fun heq => hup (by simpa using congrArg String.toList heq)

theorem location_eq (h : p.IsPlain) : p.location = p.names.reverse := by
  rw [location, foldl_enter h.ne_of_mem_names, List.append_nil]

theorem nil_not_mem_pieces (h : p.IsPlain) (hne : p.text ≠ "") : [] ∉ p.pieces := fun hnil =>
  ((h.resolve_left hne) [] hnil).1 rfl

theorem endsInSlash_eq (h : p.IsPlain) : p.endsInSlash = false := by
  by_contra hslash
  rw [Bool.not_eq_false, endsInSlash, decide_eq_true_iff] at hslash
  obtain ⟨s, hs⟩ := List.getLast?_eq_some_iff.1 hslash
  refine h.nil_not_mem_pieces (fun heq => by simp [heq] at hs) ?_
  rw [pieces, hs, Text.split_append_cons]
  exact List.mem_append_right _ List.mem_cons_self

theorem isAbsolute_eq (h : p.IsPlain) : p.isAbsolute = false := by
  by_contra habsolute
  rw [Bool.not_eq_false, isAbsolute, decide_eq_true_iff] at habsolute
  obtain ⟨s, hs⟩ := List.head?_eq_some_iff.1 habsolute
  refine h.nil_not_mem_pieces (fun heq => by simp [heq] at hs) ?_
  rw [pieces, hs, Text.split_cons, if_pos rfl]
  exact List.mem_cons_self

theorem isIdle_eq (h : p.IsPlain) (hne : p.text ≠ "") : ∀ s ∈ p.pieces, isIdle s = false := by
  intro s hs
  obtain ⟨hempty, hdot, -⟩ := (h.resolve_left hne) s hs
  simp [isIdle, hempty, hdot]

end IsPlain

/-! ### Files in a directory -/

/-- Names that can stand in a path as they are. -/
structure IsPlainName (n : String) : Prop where
  ne_empty : n ≠ ""
  ne_dot : n ≠ "."
  ne_up : n ≠ ".."
  slash : '/' ∉ n.toList

theorem ofPieces_pieces (p : FilePath) : ofPieces p.pieces = p := by
  have hjoin : ['/'].intercalate p.pieces = p.text.toList := by
    rw [pieces, Text.split_eq_splitOn]
    exact List.intercalate_splitOn '/'
  rw [ofPieces, hjoin, String.ofList_toList]

section Join

variable {d : FilePath} {n : String}

theorem pieces_of_isPlainName (hn : IsPlainName n) : (FilePath.mk n).pieces = [n.toList] :=
  Text.split_of_not_mem hn.slash

theorem isPlain_of_isPlainName (hn : IsPlainName n) : (FilePath.mk n).IsPlain := by
  refine .inr fun s hs => ?_
  rw [pieces_of_isPlainName hn, List.mem_singleton] at hs
  subst hs
  refine ⟨by simpa using hn.ne_empty, fun hdot => hn.ne_dot ?_, fun hup => hn.ne_up ?_⟩
  · exact String.toList_inj.1 hdot
  · exact String.toList_inj.1 hup

theorem join_eq (hd : d.IsPlain) (hn : IsPlainName n) :
    d.join ⟨n⟩ = if d.text = "" then ⟨n⟩ else ⟨d.text ++ "/" ++ n⟩ := by
  rw [join, (isPlain_of_isPlainName hn).isAbsolute_eq, hd.endsInSlash_eq]
  by_cases hempty : d.text = ""
  · simp [hempty]
  · simp [hempty]

theorem pieces_join (hd : d.IsPlain) (hn : IsPlainName n) (hne : d.text ≠ "") :
    (d.join ⟨n⟩).pieces = d.pieces ++ [n.toList] := by
  rw [join_eq hd hn, if_neg hne, ← pieces_of_isPlainName hn]
  simp [pieces, Text.split_append_cons]

theorem text_join_ne (hd : d.IsPlain) (hn : IsPlainName n) : (d.join ⟨n⟩).text ≠ "" := by
  rw [join_eq hd hn]
  split_ifs
  · exact hn.ne_empty
  · simp

theorem isPlain_join (hd : d.IsPlain) (hn : IsPlainName n) : (d.join ⟨n⟩).IsPlain := by
  by_cases hne : d.text = ""
  · rw [join_eq hd hn, if_pos hne]
    exact isPlain_of_isPlainName hn
  · have hname := (isPlain_of_isPlainName hn).resolve_left hn.ne_empty
    rw [pieces_of_isPlainName hn] at hname
    refine .inr fun s hs => ?_
    rw [pieces_join hd hn hne] at hs
    rcases List.mem_append.1 hs with hs | hs
    · exact (hd.resolve_left hne) s hs
    · exact hname s hs

theorem names_join (hd : d.IsPlain) (hn : IsPlainName n) : (d.join ⟨n⟩).names = d.names ++ [n] := by
  by_cases hne : d.text = ""
  · rw [join_eq hd hn, if_pos hne, names_of_text_eq hne, (isPlain_of_isPlainName hn).names_eq hn.ne_empty,
      pieces_of_isPlainName hn]
    simp
  · rw [(isPlain_join hd hn).names_eq (text_join_ne hd hn), pieces_join hd hn hne, hd.names_eq hne]
    simp

/-- A file lies in the directory that its name was put behind. -/
theorem directory_join (hd : d.IsPlain) (hn : IsPlainName n) :
    (d.join ⟨n⟩).directory = if d.text = "" then ⟨"."⟩ else d := by
  have hname : n.toList.isEmpty = false := by simpa using hn.ne_empty
  by_cases hne : d.text = ""
  · rw [if_pos hne, directory, parent?, join_eq hd hn, if_pos hne, pieces_of_isPlainName hn]
    simp [withoutIdleEnd, hname]
  · obtain ⟨first, more, hp⟩ := Text.exists_split_eq_cons '/' d.text.toList
    change d.pieces = first :: more at hp
    have hidle := (isPlain_join hd hn).isIdle_eq (text_join_ne hd hn)
    rw [pieces_join hd hn hne, hp] at hidle
    have hend : withoutIdleEnd (more ++ [n.toList]) = more ++ [n.toList] :=
      withoutIdleEnd_eq fun s hs => hidle s (List.mem_cons_of_mem first hs)
    have hrest : withoutIdleEnd more = more :=
      withoutIdleEnd_eq fun s hs => hidle s (List.mem_append_left _ (List.mem_cons_of_mem first hs))
    have hfirst : first.isEmpty = false := by
      have hfirst := hidle first List.mem_cons_self
      rw [isIdle, Bool.or_eq_false_iff] at hfirst
      exact hfirst.1
    have hparent : (d.join ⟨n⟩).parent? = some d := by
      rw [parent?, pieces_join hd hn hne, hp, List.cons_append]
      simp only [hend, hfirst, Bool.false_and, Bool.false_eq_true, if_false]
      split
      · simp_all
      · rw [List.dropLast_concat, hrest, ← hp, ofPieces_pieces]
    rw [if_neg hne, directory, hparent]
    simp [hne]

/-- Paths of files in plain directories. -/
def IsFile (p : FilePath) : Prop := ∃ (d : FilePath) (n : String), d.IsPlain ∧ IsPlainName n ∧ p = d.join ⟨n⟩

theorem IsFile.isPlain {p : FilePath} (hp : p.IsFile) : p.IsPlain := by
  obtain ⟨d, n, hd, hn, rfl⟩ := hp
  exact isPlain_join hd hn

theorem IsFile.names_ne_nil {p : FilePath} (hp : p.IsFile) : p.names ≠ [] := by
  obtain ⟨d, n, hd, hn, rfl⟩ := hp
  simp [names_join hd hn]

end Join

end FilePath

end OpHeaders.Files
