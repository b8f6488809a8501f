import OpHeaders.Proofs.Header.Documentation

/-! The columns of a field. The first line of a description stands behind the name and the
separator, the others behind as many spaces as those have bytes. Characters and bytes are as
many in ASCII only, so behind any other name the further lines stand too far to the right. -/
namespace OpHeaders.Text

def IsAscii (s : String) : Prop := ∀ c ∈ s.toList, c.toNat < 128

instance (s : String) : Decidable (IsAscii s) := List.decidableBAll (fun c : Char => c.toNat < 128) s.toList

theorem utf8Size_eq_one_iff {c : Char} : c.utf8Size = 1 ↔ c.toNat < 128 :=
  Char.utf8Size_eq_one_iff.trans (UInt32.le_iff_toNat_le.trans Nat.lt_succ_iff.symm)

end OpHeaders.Text

namespace OpHeaders.Header

open Text (trimEnd rows IsTidy IsAscii)

/-! ### Bytes and characters -/

theorem byteLength_cons (c : Char) (s : List Char) : byteLength (c :: s) = c.utf8Size + byteLength s := rfl

theorem length_le_byteLength (s : List Char) : s.length ≤ byteLength s := by
  induction s with
  | nil => exact Nat.le_refl 0
  | cons c s ih =>
    have hc := c.utf8Size_pos
    rw [byteLength_cons, List.length_cons]
    omega

/-- In ASCII, and only there, every character is one byte. -/
theorem byteLength_eq_length_iff {s : List Char} : byteLength s = s.length ↔ ∀ c ∈ s, c.toNat < 128 := by
  induction s with
  | nil => simp [byteLength]
  | cons c s ih =>
    have hc := c.utf8Size_pos
    have hs := length_le_byteLength s
    rw [byteLength_cons, List.length_cons, List.forall_mem_cons, ← ih, ← Text.utf8Size_eq_one_iff]
    omega

/-! ### Columns -/

/-- Whether each text that is not empty is the end of its line, all of them from one column on. -/
def IsAligned (texts ls : List (List Char)) : Prop :=
  ∃ column, ∀ (i : Nat) (text : List Char), texts[i]? = some text → text ≠ [] →
    ∃ l, ls[i]? = some l ∧ l.drop column = text

theorem drop_append_eq_iff {s t : List Char} (ht : t ≠ []) {n : Nat} : (s ++ t).drop n = t ↔ n = s.length := by
  constructor
  · intro h
    have hpos := List.length_pos_iff.2 ht
    have hlen := congrArg List.length h
    rw [List.length_drop, List.length_append] at hlen
    omega
  · rintro rfl
    exact List.drop_left

theorem drop_trimEnd_append_iff {s t : List Char} (ht : t ≠ []) (htrim : trimEnd t = t) {n : Nat} :
    (trimEnd (s ++ t)).drop n = t ↔ n = s.length := by
  rw [Text.trimEnd_append_of_ne_nil _ ht htrim, drop_append_eq_iff ht]

/-- The first line and the last one are not empty, so they show how far each kind of line is indented. -/
theorem length_eq_of_isAligned {start more t u : List Char} {us : List (List Char)}
    (hls : IsTidy (t :: (us ++ [u]))) (hu : u ≠ [])
    (h : IsAligned (t :: (us ++ [u])) (continued start more (t :: (us ++ [u])))) :
    start.length = more.length := by
  have ht : t ≠ [] := fun hnil => hls.head (congrArg some hnil)
  obtain ⟨column, hall⟩ := h
  obtain ⟨first, hfirst, hcolumn⟩ := hall 0 t rfl ht
  obtain ⟨last, hend, hfurther⟩ := hall (us.length + 1) u (by simp) hu
  obtain rfl : trimEnd (start ++ t) = first := Option.some.inj hfirst
  obtain rfl : trimEnd (more ++ u) = last := by simpa [continued] using hend
  rw [drop_trimEnd_append_iff ht (hls.trimEnd t List.mem_cons_self)] at hcolumn
  rw [drop_trimEnd_append_iff hu (hls.trimEnd u (by simp))] at hfurther
  exact hcolumn.symm.trans hfurther

theorem isAligned_continued {start more : List Char} {ls : List (List Char)} (hls : IsTidy ls)
    (hlength : start.length = more.length ∨ ls.length ≤ 1) : IsAligned ls (continued start more ls) := by
  refine ⟨start.length, fun i text htext hne => ?_⟩
  have htrim := hls.trimEnd text (List.mem_of_getElem? htext)
  cases i with
  | zero =>
    rw [← List.head?_eq_getElem?] at htext
    refine ⟨trimEnd (start ++ text), ?_, (drop_trimEnd_append_iff hne htrim).2 rfl⟩
    rw [continued, List.headD_eq_head?_getD, htext]
    rfl
  | succ i =>
    obtain ⟨hi, -⟩ := List.getElem?_eq_some_iff.1 htext
    refine ⟨trimEnd (more ++ text), ?_, (drop_trimEnd_append_iff hne htrim).2 (by omega)⟩
    rw [continued, List.getElem?_cons_succ, List.getElem?_map, List.getElem?_tail, htext]
    rfl

/-- Lines are aligned if what stands in front of the first one is as long as what stands in front of
the others, or if there are no others. -/
theorem isAligned_continued_iff {start more : List Char} {ls : List (List Char)} (hls : IsTidy ls)
    (hlast : ls.getLast? ≠ some []) :
    IsAligned ls (continued start more ls) ↔ start.length = more.length ∨ ls.length ≤ 1 := by
  refine ⟨fun h => ?_, isAligned_continued hls⟩
  cases ls with
  | nil => exact .inr (Nat.zero_le 1)
  | cons t ts =>
    rcases List.eq_nil_or_concat ts with rfl | ⟨us, u, rfl⟩
    · exact .inr (Nat.le_refl 1)
    · have hu : u ≠ [] := by
        rintro rfl
        simp [List.getLast?_cons] at hlast
      rw [List.concat_eq_append] at hls h
      exact .inl (length_eq_of_isAligned hls hu h)

/-! ### Fields -/

theorem newline_not_mem_fieldLines (indent : Nat) {name : String} (hname : '\n' ∉ name.toList)
    (text : String) : ∀ l ∈ fieldLines indent name text, '\n' ∉ l := by
  have hmarker : '\n' ∉ marker := by decide
  have hseparator : '\n' ∉ separator := by decide
  intro l hl hnewline
  rcases mem_continued hl with rfl | ⟨m, hm, rfl⟩
  · have hmem := (Text.isPrefix_trimEnd _).subset hnewline
    simp [hmarker, newline_not_mem_pad, hname, hseparator, newline_not_mem_headD_describedLines,
      -List.headD_eq_head?_getD] at hmem
  · have hmem := (Text.isPrefix_trimEnd _).subset hnewline
    have hm : '\n' ∉ m := Text.newline_not_mem_of_mem_lines (List.mem_of_mem_tail hm)
    simp [hmarker, newline_not_mem_pad, hm] at hmem

/-- The lines of a description are aligned behind a name if and only if the name is in ASCII or there
is no more than one line. -/
theorem isAligned_fieldLines_iff (indent : Nat) {name : String} (hname : '\n' ∉ name.toList) (text : String) :
    IsAligned (describedLines text) (rows (Text.unlines (fieldLines indent name text))) ↔
      IsAscii name ∨ (describedLines text).length ≤ 1 := by
  have hseparator : byteLength separator = separator.length := by decide
  have hlength : (marker ++ pad indent ++ name.toList ++ separator).length =
      (marker ++ pad (indent + byteLength name.toList + byteLength separator)).length ↔
        byteLength name.toList = name.toList.length := by
    simp only [List.length_append, pad, List.length_replicate, hseparator]
    omega
  have htidy : IsTidy (describedLines text) := Text.isTidy_lines _
  rw [Text.rows_unlines_of_not_mem (newline_not_mem_fieldLines indent hname text), fieldLines,
    isAligned_continued_iff htidy (Text.getLast?_lines_ne _), hlength, byteLength_eq_length_iff, IsAscii]

theorem isAligned_fieldLines_indented :
    '\n' ∉ "x_1".toList ∧
    IsAligned (describedLines "\"left\n  and \\\"right\\\" \n\n end\"")
      (rows (Text.unlines (fieldLines 4 "x_1" "\"left\n  and \\\"right\\\" \n\n end\""))) := by
  have hname : '\n' ∉ "x_1".toList := by decide
  exact ⟨hname, (isAligned_fieldLines_iff 4 hname _).2 (.inl (by decide))⟩

/-- The letter is two bytes long, so the second line is a column too far to the right. -/
theorem not_isAligned_fieldLines_accented :
    '\n' ∉ "é".toList ∧
    ¬ IsAligned (describedLines "a\nb") (rows (Text.unlines (fieldLines 4 "é" "a\nb"))) := by
  refine ⟨by decide, ?_⟩
  rintro ⟨column, hall⟩
  obtain ⟨first, hfirst, hcolumn⟩ := hall 0 ['a'] (by decide +kernel) (by decide)
  obtain ⟨second, hsecond, hfurther⟩ := hall 1 ['b'] (by decide +kernel) (by decide)
  obtain rfl : " *    é : ".toList ++ ['a'] = first := by
    have hrow : (rows (Text.unlines (fieldLines 4 "é" "a\nb")))[0]? = some (" *    é : ".toList ++ ['a']) := by
      decide +kernel
    exact Option.some.inj (hrow.symm.trans hfirst)
  obtain rfl : " *         ".toList ++ ['b'] = second := by
    have hrow : (rows (Text.unlines (fieldLines 4 "é" "a\nb")))[1]? = some (" *         ".toList ++ ['b']) := by
      decide +kernel
    exact Option.some.inj (hrow.symm.trans hsecond)
  rw [drop_append_eq_iff (by decide)] at hcolumn hfurther
  exact absurd (hcolumn.symm.trans hfurther) (by decide)

end OpHeaders.Header
