import OpHeaders.Proofs.Text.Gaps

/-! The normal form of a text of several lines. Lines of texts have no newlines inside, no blanks at
their ends, and blank lines only between others; lists of lines with these properties are in normal form.
Put together with newlines, such lines are a text that trimming leaves as it is, so they are its
lines again. -/
namespace OpHeaders.Text

variable {s l : List Char} {ls : List (List Char)}

/-- The text of lines with a newline between each two of them. -/
def joined (ls : List (List Char)) : List Char := ['\n'].intercalate ls

/-- Lines without newlines and without blanks at their ends, the first of which starts with a character
that is not blank and the last of which is not empty. -/
structure IsNormal (ls : List (List Char)) : Prop where
  newline : ∀ l ∈ ls, '\n' ∉ l
  lineEnd : ∀ l ∈ ls, ∀ c ∈ l.getLast?, isBlank c = false
  start : ∀ l ∈ ls.head?, ∃ c ∈ l.head?, isBlank c = false
  last : ls.getLast? ≠ some []

/-! ### Lines of texts -/

theorem isBlank_of_head?_lines (h : (lines s).head? = some l) : ∃ c ∈ l.head?, isBlank c = false := by
  have hne : isAllBlank s = false := by
    rw [← Bool.not_eq_true, ← lines_eq_nil_iff]
    intro hnil
    simp [hnil] at h
  obtain ⟨-, m, ms, -, -, -, -, hm, hlines⟩ := exists_split_eq hne
  obtain rfl : trim m = l := by simpa [hlines] using h
  obtain ⟨c, t, hc⟩ := List.exists_cons_of_ne_nil (trim_ne_nil hm)
  exact ⟨c, by rw [hc]; rfl, isBlank_of_trim_eq_cons hc⟩

theorem isNormal_lines (s : List Char) : IsNormal (lines s) where
  newline _ hl := newline_not_mem_of_mem_lines hl
  lineEnd l hl := trimEnd_eq_self_iff.1 ((isTidy_lines s).trimEnd l hl)
  start _ hl := isBlank_of_head?_lines hl
  last := getLast?_lines_ne s

/-! ### Texts of lines -/

theorem isSuffix_joined (h : ls.getLast? = some l) : l <:+ joined ls := by
  induction ls with
  | nil => cases h
  | cons m ms ih =>
    cases ms with
    | nil =>
      obtain rfl : m = l := Option.some.inj h
      exact ⟨[], List.intercalate_singleton.symm⟩
    | cons n ns =>
      have hstep : joined (m :: n :: ns) = m ++ ['\n'] ++ joined (n :: ns) := List.intercalate_cons_cons
      rw [hstep]
      exact (ih h).trans (List.suffix_append _ _)

namespace IsNormal

theorem exists_joined_eq_cons (h : IsNormal ls) (hne : ls ≠ []) :
    ∃ c rest, joined ls = c :: rest ∧ isBlank c = false := by
  obtain ⟨l, ms, rfl⟩ := List.exists_cons_of_ne_nil hne
  obtain ⟨c, hc, hblank⟩ := h.start l rfl
  obtain ⟨r, rfl⟩ := List.head?_eq_some_iff.1 hc
  exact ⟨c, _, List.intercalate_cons_cons_left, hblank⟩

theorem isBlank_of_getLast?_joined (h : IsNormal ls) (hne : ls ≠ []) :
    ∀ c ∈ (joined ls).getLast?, isBlank c = false := by
  have hlast : ls.getLast? = some (ls.getLast hne) := List.getLast?_eq_some_getLast hne
  obtain ⟨front, hfront⟩ := isSuffix_joined hlast
  have hline : ls.getLast hne ≠ [] := fun hnil => h.last (hnil ▸ hlast)
  rw [← hfront, List.getLast?_append_of_ne_nil front hline]
  exact h.lineEnd _ (List.getLast_mem hne)

/-- The first line does not start with a blank and the last one does not end with one. -/
theorem trim_joined (h : IsNormal ls) (hne : ls ≠ []) : trim (joined ls) = joined ls := by
  obtain ⟨c, rest, hjoined, hblank⟩ := h.exists_joined_eq_cons hne
  refine trim_eq_self_iff.2 ⟨?_, h.isBlank_of_getLast?_joined hne⟩
  rw [hjoined]
  simpa using hblank

theorem lines_joined (h : IsNormal ls) : lines (joined ls) = ls := by
  by_cases hne : ls = []
  · rw [hne]
    rfl
  · have htrim := h.trim_joined hne
    have hsplit : split '\n' (joined ls) = ls := split_intercalate h.newline hne
    have hbody : trim (joined ls) ≠ [] := by
      obtain ⟨c, rest, hjoined, -⟩ := h.exists_joined_eq_cons hne
      rw [htrim, hjoined]
      exact List.cons_ne_nil c rest
    have hends : ls.map trimEnd = ls.map id :=
      List.map_congr_left fun l hl => trimEnd_eq_self_iff.2 (h.lineEnd l hl)
    rw [lines_of_trim_ne_nil hbody, htrim, hsplit, hends, List.map_id]

end IsNormal

/-- **Normal form.** The lines of every text are in normal form, and there are none if and only if the
text is blank; and exactly the lists in normal form are the lines of the text they make. -/
theorem lines_isNormalForm (s : List Char) (ls : List (List Char)) :
    IsNormal (lines s) ∧ (lines s = [] ↔ ∀ c ∈ s, isBlank c = true) ∧
      (IsNormal ls ↔ lines (joined ls) = ls) ∧ lines (joined (lines s)) = lines s := by
  have hback : IsNormal ls ↔ lines (joined ls) = ls :=
    ⟨IsNormal.lines_joined, fun h => h ▸ isNormal_lines (joined ls)⟩
  exact ⟨isNormal_lines s, lines_eq_nil_iff.trans isAllBlank_iff, hback, (isNormal_lines s).lines_joined⟩

/-- Lines that are not in normal form are not found again. -/
example : lines (joined [" a".toList, "b".toList]) = ["a".toList, "b".toList] := by decide

end OpHeaders.Text
