import Mathlib.Data.List.DropRight
import OpHeaders.Text.Lines

/-! What trimming and splitting do to a text, and how its lines are found again. A
trimmed text and the parts of a split one are pieces of the whole; no line has a newline
inside, so a text whose lines are terminated determines them. Lines of a text have no blanks
at their ends, so trimming takes nothing from them that something else was put in front of. -/
namespace OpHeaders.Text

variable {c : Char} {s t : List Char}

/-! ### Trimming -/

theorem trimEnd_eq (s : List Char) : trimEnd s = s.rdropWhile isBlank := rfl

theorem isPrefix_trimEnd (s : List Char) : trimEnd s <+: s := List.rdropWhile_prefix isBlank s

theorem isInfix_trim (s : List Char) : trim s <:+: s :=
  (isPrefix_trimEnd _).isInfix.trans (List.dropWhile_suffix isBlank).isInfix

/-- Trimming stops at a character that is not blank. -/
theorem trimEnd_append_cons (s t : List Char) (hc : isBlank c = false) :
    trimEnd (s ++ c :: t) = s ++ c :: trimEnd t := by
  induction t using List.reverseRecOn with
  | nil => simp [trimEnd_eq, hc]
  | append_singleton t d ih =>
    have hd : s ++ c :: (t ++ [d]) = (s ++ c :: t) ++ [d] := by simp
    rw [hd, trimEnd_eq, trimEnd_eq, List.rdropWhile_concat, List.rdropWhile_concat, ← trimEnd_eq,
      ← trimEnd_eq, ih]
    split_ifs <;> simp

theorem trimEnd_trimEnd (s : List Char) : trimEnd (trimEnd s) = trimEnd s :=
  List.rdropWhile_idempotent isBlank s

/-- Trimming reaches the first part of a text only if the second one is blank. -/
theorem trimEnd_append (s t : List Char) :
    trimEnd (s ++ t) = if trimEnd t = [] then trimEnd s else s ++ trimEnd t := by
  simp only [trimEnd, List.reverse_append, List.dropWhile_append, List.isEmpty_iff, List.reverse_eq_nil_iff]
  split_ifs <;> simp

theorem trimEnd_append_of_ne_nil (s : List Char) (ht : t ≠ []) (htrim : trimEnd t = t) :
    trimEnd (s ++ t) = s ++ t := by
  rw [trimEnd_append, htrim, if_neg ht]

theorem trimEnd_append_inj {u : List Char} (hs : trimEnd s = s) (ht : trimEnd t = t)
    (h : trimEnd (u ++ s) = trimEnd (u ++ t)) : s = t := by
  have hlt : ∀ v : List Char, v ≠ [] → trimEnd u ≠ u ++ v := fun v hv heq => by
    have hle := (isPrefix_trimEnd u).length_le
    have hpos := List.length_pos_iff.2 hv
    rw [heq, List.length_append] at hle
    omega
  rw [trimEnd_append, trimEnd_append, hs, ht] at h
  split_ifs at h with hsnil htnil htnil
  · rw [hsnil, htnil]
  · exact absurd h (hlt t htnil)
  · exact absurd h.symm (hlt s hsnil)
  · exact List.append_cancel_left h

/-- A trimmed text does not start with a blank. -/
theorem isBlank_of_trim_eq_cons (h : trim s = c :: t) : isBlank c = false := by
  obtain ⟨u, hu⟩ : c :: t <+: trimStart s := h ▸ isPrefix_trimEnd (trimStart s)
  have hhead := List.head?_dropWhile_not isBlank s
  rw [← trimStart, ← hu] at hhead
  exact hhead

theorem trimStart_eq_self_iff : trimStart s = s ↔ ∀ c ∈ s.head?, isBlank c = false := by
  rw [trimStart, List.dropWhile_eq_self_iff]
  cases s <;> simp

theorem trimEnd_eq_self_iff : trimEnd s = s ↔ ∀ c ∈ s.getLast?, isBlank c = false := by
  rw [trimEnd_eq, List.rdropWhile_eq_self_iff]
  constructor
  · intro h c hc
    obtain ⟨hne, rfl⟩ := List.mem_getLast?_eq_getLast hc
    simpa using h hne
  · intro h hne
    simp [h _ (List.getLast_mem_getLast? hne)]

theorem trimStart_trim (s : List Char) : trimStart (trim s) = trim s := by
  refine trimStart_eq_self_iff.2 fun c hc => ?_
  obtain ⟨t, ht⟩ := List.head?_eq_some_iff.1 hc
  exact isBlank_of_trim_eq_cons ht

theorem trimEnd_trim (s : List Char) : trimEnd (trim s) = trim s := trimEnd_trimEnd (trimStart s)

/-- Trimming leaves the texts as they are that have no blanks at their ends. -/
theorem trim_eq_self_iff :
    trim s = s ↔ (∀ c ∈ s.head?, isBlank c = false) ∧ ∀ c ∈ s.getLast?, isBlank c = false := by
  rw [← trimStart_eq_self_iff, ← trimEnd_eq_self_iff]
  constructor
  · intro h
    rw [← h]
    exact ⟨trimStart_trim s, trimEnd_trim s⟩
  · rintro ⟨hstart, hend⟩
    rw [trim, hstart, hend]

theorem trim_trim (s : List Char) : trim (trim s) = trim s := by
  rw [trim, trimStart_trim, trimEnd_trim]

theorem trimmed_eq_self_iff {s : String} : trimmed s = s ↔
    (∀ c ∈ s.toList.head?, isBlank c = false) ∧ ∀ c ∈ s.toList.getLast?, isBlank c = false := by
  rw [← trim_eq_self_iff, trimmed, ← String.toList_inj, String.toList_ofList]

theorem trimmed_trimmed (s : String) : trimmed (trimmed s) = trimmed s := by
  rw [trimmed, trimmed, String.toList_ofList, trim_trim]

/-! ### Splitting -/

/-- Splitting is that of the library, written as a fold. -/
theorem split_eq_splitOn (c : Char) (s : List Char) : split c s = s.splitOn c := by
  induction s with
  | nil => rfl
  | cons d s ih =>
    rw [List.splitOn_cons_eq_if_modifyHead, ← ih]
    simp only [split, List.foldr_cons, beq_iff_eq]
    split_ifs
    · rfl
    · cases h : List.foldr _ _ s with
      | nil => exact absurd (ih.symm.trans h) (List.splitOn_ne_nil c s)
      | cons p ps => rfl

theorem split_cons (c d : Char) (s : List Char) :
    split c (d :: s) = if d = c then [] :: split c s else (split c s).modifyHead (d :: ·) := by
  simp only [split_eq_splitOn, List.splitOn_cons_eq_if_modifyHead, beq_iff_eq]

theorem exists_split_eq_cons (c : Char) (s : List Char) : ∃ p ps, split c s = p :: ps := by
  rw [split_eq_splitOn]
  exact List.exists_cons_of_ne_nil (List.splitOn_ne_nil c s)

theorem split_intercalate {ls : List (List Char)} (hls : ∀ l ∈ ls, c ∉ l) (hne : ls ≠ []) :
    split c ([c].intercalate ls) = ls := by
  rw [split_eq_splitOn]
  exact List.splitOn_intercalate c hls hne

theorem split_of_not_mem (h : c ∉ s) : split c s = [s] := by
  have hline : ∀ l ∈ [s], c ∉ l := by simpa using h
  simpa using split_intercalate hline (List.cons_ne_nil s [])

/-- A text in front without the separator belongs to the first part. -/
theorem split_append_of_not_mem (h : c ∉ s) (t : List Char) :
    split c (s ++ t) = (split c t).modifyHead (s ++ ·) := by
  obtain ⟨p, ps, hp⟩ := exists_split_eq_cons c t
  induction s with
  | nil => simp [hp]
  | cons d s ih =>
    rw [List.mem_cons, not_or] at h
    rw [List.cons_append, split_cons, if_neg (Ne.symm h.1), ih h.2, hp]
    rfl

theorem split_append_cons (c : Char) (s t : List Char) :
    split c (s ++ c :: t) = split c s ++ split c t := by
  induction s with
  | nil => simp [split]
  | cons d s ih =>
    obtain ⟨p, ps, hp⟩ := exists_split_eq_cons c s
    rw [List.cons_append, split_cons, split_cons, ih, hp]
    split_ifs <;> rfl

/-- Parts with the separator behind each of them, and nothing behind the last one. -/
theorem split_flatMap {ps : List (List Char)} (h : ∀ p ∈ ps, c ∉ p) :
    split c (ps.flatMap (· ++ [c])) = ps ++ [[]] := by
  induction ps with
  | nil => rfl
  | cons p ps ih =>
    rw [List.forall_mem_cons] at h
    rw [List.flatMap_cons, List.append_assoc, List.singleton_append, split_append_cons, split_of_not_mem h.1,
      ih h.2, List.singleton_append, List.cons_append]

theorem not_mem_of_mem_split (h : t ∈ split c s) : c ∉ t := by
  induction s generalizing t with
  | nil => simp_all [split]
  | cons d s ih =>
    obtain ⟨p, ps, hp⟩ := exists_split_eq_cons c s
    rw [hp] at ih
    rw [split_cons, hp] at h
    split_ifs at h with hd
    · rcases List.mem_cons.1 h with rfl | h
      · exact List.not_mem_nil
      · exact ih h
    · rcases List.mem_cons.1 h with rfl | h
      · have hnot : c ∉ p := ih List.mem_cons_self
        simp [hnot, Ne.symm hd]
      · exact ih (List.mem_cons_of_mem p h)

theorem isPrefix_of_split_eq_cons {ps : List (List Char)} (h : split c s = t :: ps) : t <+: s := by
  induction s generalizing t ps with
  | nil => simp_all [split]
  | cons d s ih =>
    obtain ⟨p, qs, hp⟩ := exists_split_eq_cons c s
    rw [split_cons, hp] at h
    split_ifs at h with hd
    · obtain ⟨rfl, -⟩ := List.cons.inj h
      exact List.nil_prefix
    · obtain ⟨rfl, -⟩ := List.cons.inj h
      exact (List.cons_prefix_cons).2 ⟨rfl, ih hp⟩

theorem isInfix_of_mem_split (h : t ∈ split c s) : t <:+: s := by
  induction s generalizing t with
  | nil => simp_all [split]
  | cons d s ih =>
    obtain ⟨p, ps, hp⟩ := exists_split_eq_cons c (d :: s)
    rw [hp] at h
    rcases List.mem_cons.1 h with rfl | h
    · exact (isPrefix_of_split_eq_cons hp).isInfix
    · -- a part behind the first one is a part of the rest of the text
      obtain ⟨q, qs, hq⟩ := exists_split_eq_cons c s
      have hmem : t ∈ split c s := by
        rw [split_cons, hq] at hp
        split_ifs at hp
        · exact hq ▸ (List.cons.inj hp).2 ▸ h
        · exact hq ▸ (List.cons.inj hp).2 ▸ List.mem_cons_of_mem q h
      exact (ih hmem).trans (List.suffix_cons d s).isInfix

/-! ### Lines -/

theorem mem_lines (h : t ∈ lines s) : ∃ p ∈ split '\n' (trim s), t = trimEnd p := by
  unfold lines at h
  split at h
  · exact absurd h List.not_mem_nil
  · obtain ⟨p, hp, rfl⟩ := List.mem_map.1 h
    exact ⟨p, hp, rfl⟩

theorem newline_not_mem_of_mem_lines (h : t ∈ lines s) : '\n' ∉ t := by
  obtain ⟨p, hp, rfl⟩ := mem_lines h
  exact fun hn => not_mem_of_mem_split hp ((isPrefix_trimEnd p).subset hn)

theorem isInfix_of_mem_lines (h : t ∈ lines s) : t <:+: s := by
  obtain ⟨p, hp, rfl⟩ := mem_lines h
  exact ((isPrefix_trimEnd p).isInfix.trans (isInfix_of_mem_split hp)).trans (isInfix_trim s)

/-- What holds of all lines and of the empty one holds of the first line there is, or else of the
empty one. -/
theorem headD_of_forall_mem {P : List Char → Prop} {ls : List (List Char)} (hnil : P []) (h : ∀ l ∈ ls, P l) :
    P (ls.headD []) := by
  cases ls with
  | nil => exact hnil
  | cons l ls => exact h l List.mem_cons_self

/-- Lines without blanks at their ends, of which the first one is not empty. -/
structure IsTidy (ls : List (List Char)) : Prop where
  trimEnd : ∀ l ∈ ls, trimEnd l = l
  head : ls.head? ≠ some []

theorem IsTidy.trimEnd_headD {ls : List (List Char)} (h : IsTidy ls) :
    Text.trimEnd (ls.headD []) = ls.headD [] :=
  headD_of_forall_mem (P := fun l => Text.trimEnd l = l) rfl h.trimEnd

theorem isTidy_lines (s : List Char) : IsTidy (lines s) where
  trimEnd l hl := by
    obtain ⟨p, -, rfl⟩ := mem_lines hl
    exact trimEnd_trimEnd p
  head := by
    unfold lines
    split
    · simp
    · next hne =>
      -- the body starts with a character that is not blank, and so does its first line
      obtain ⟨c, u, hcu⟩ : ∃ c u, trim s = c :: u := List.exists_cons_of_ne_nil hne
      have hc : isBlank c = false := isBlank_of_trim_eq_cons hcu
      obtain ⟨p, ps, hp⟩ := exists_split_eq_cons '\n' (trim s)
      rw [hp]
      rw [hcu, split_cons, if_neg (by rintro rfl; revert hc; decide)] at hp
      obtain ⟨q, qs, hq⟩ := exists_split_eq_cons '\n' u
      rw [hq, List.modifyHead_cons] at hp
      obtain ⟨rfl, -⟩ := List.cons.inj hp
      have hline : trimEnd (c :: q) = c :: trimEnd q := trimEnd_append_cons [] q hc
      simp [hline]

@[simp]
theorem unlines_nil : unlines [] = [] := rfl

@[simp]
theorem unlines_cons (l : List Char) (ls : List (List Char)) :
    unlines (l :: ls) = l ++ '\n' :: unlines ls := by
  simp [unlines]

@[simp]
theorem unlines_append (ls ms : List (List Char)) : unlines (ls ++ ms) = unlines ls ++ unlines ms := by
  simp [unlines]

/-- Splitting finds the lines again, with nothing behind the last newline. -/
theorem split_unlines {ls : List (List Char)} (h : ∀ l ∈ ls, '\n' ∉ l) :
    split '\n' (unlines ls) = ls ++ [[]] := split_flatMap h

/-- What stands in front of each newline of a text. -/
def rows (s : List Char) : List (List Char) := (split '\n' s).dropLast

/-- A line with newlines inside makes several rows. -/
theorem rows_unlines (ls : List (List Char)) : rows (unlines ls) = ls.flatMap (split '\n') := by
  induction ls with
  | nil => rfl
  | cons l ls ih =>
    obtain ⟨p, ps, hp⟩ := exists_split_eq_cons '\n' (unlines ls)
    rw [rows, unlines_cons, split_append_cons,
      List.dropLast_append_of_ne_nil (hp ▸ List.cons_ne_nil p ps), ← rows, ih, List.flatMap_cons]

theorem rows_unlines_of_not_mem {ls : List (List Char)} (h : ∀ l ∈ ls, '\n' ∉ l) :
    rows (unlines ls) = ls := by
  rw [rows, split_unlines h, List.dropLast_concat]

theorem unlines_injOn {ls ms : List (List Char)} (hls : ∀ l ∈ ls, '\n' ∉ l) (hms : ∀ l ∈ ms, '\n' ∉ l)
    (h : unlines ls = unlines ms) : ls = ms := by
  have hsplit : ls ++ [[]] = ms ++ [[]] := by rw [← split_unlines hls, ← split_unlines hms, h]
  exact List.append_cancel_right hsplit

end OpHeaders.Text
