import OpHeaders.Proofs.Text.Gaps

/-! Blanks at the ends of lines. Wherever blanks are put in front of the newlines of a text,
taking off its quotes, trimming and splitting it go on as before, and trimming its lines takes
the blanks away again. A newline of two characters is such a blank and a newline. -/
namespace OpHeaders.Text

/-- Whether the second text is the first one with blanks put in front of newlines. -/
inductive Pads : List Char → List Char → Prop
  | nil : Pads [] []
  | cons (c : Char) {s t : List Char} (h : Pads s t) : Pads (c :: s) (c :: t)
  | newline {blanks s t : List Char} (hblanks : isAllBlank blanks = true) (hline : '\n' ∉ blanks) (h : Pads s t) :
    Pads ('\n' :: s) (blanks ++ '\n' :: t)

/-- The text with a carriage return in front of every newline. -/
def withReturns (s : List Char) : List Char := s.flatMap fun c => if c = '\n' then ['\r', '\n'] else [c]

namespace Pads

variable {s t : List Char} {c : Char}

theorem refl : ∀ s : List Char, Pads s s
  | [] => .nil
  | c :: s => .cons c (refl s)

theorem withReturns (s : List Char) : Pads s (Text.withReturns s) := by
  induction s with
  | nil => exact .nil
  | cons c s ih =>
    rw [Text.withReturns, List.flatMap_cons]
    split_ifs with hc
    · subst hc
      exact @newline ['\r'] s (Text.withReturns s) (by decide) (by decide) ih
    · exact .cons c ih

/-! ### Where the characters stay -/

theorem cons_left_iff (hc : c ≠ '\n') : Pads (c :: s) t ↔ ∃ u, t = c :: u ∧ Pads s u := by
  constructor
  · intro h
    cases h with
    | cons _ h => exact ⟨_, rfl, h⟩
    | newline => exact absurd rfl hc
  · rintro ⟨u, rfl, h⟩
    exact .cons c h

theorem cons_right (hc : isBlank c = false) (h : Pads s (c :: t)) : ∃ u, s = c :: u ∧ Pads u t := by
  generalize hw : c :: t = w at h
  cases h with
  | nil => cases hw
  | cons _ h =>
    obtain ⟨rfl, rfl⟩ := List.cons.inj hw
    exact ⟨_, rfl, h⟩
  | @newline blanks _ _ hblanks hline h =>
    -- what is put in front of a newline is blank, and so is the newline
    cases blanks with
    | nil =>
      obtain ⟨rfl, -⟩ := List.cons.inj hw
      exact absurd hc (by decide)
    | cons b bs =>
      obtain ⟨rfl, -⟩ := List.cons.inj hw
      exact absurd ((isAllBlank_iff.1 hblanks c List.mem_cons_self).symm.trans hc) (by decide)

theorem of_concat (hc : c ≠ '\n') (h : Pads (s ++ [c]) t) : ∃ u, t = u ++ [c] ∧ Pads s u := by
  induction s generalizing t with
  | nil =>
    obtain ⟨u, rfl, hu⟩ := (cons_left_iff hc).1 h
    cases hu
    exact ⟨[], rfl, .nil⟩
  | cons d s ih =>
    cases h with
    | cons _ h =>
      obtain ⟨u, rfl, hu⟩ := ih h
      exact ⟨d :: u, rfl, .cons d hu⟩
    | @newline blanks _ _ hblanks hline h =>
      obtain ⟨u, rfl, hu⟩ := ih h
      exact ⟨blanks ++ '\n' :: u, by simp, .newline hblanks hline hu⟩

theorem getLast?_eq (h : Pads s t) : s.getLast? = t.getLast? := by
  induction h with
  | nil => rfl
  | cons c _ ih => rw [List.getLast?_cons, List.getLast?_cons, ih]
  | newline _ _ _ ih =>
    rw [List.getLast?_cons, List.getLast?_append, List.getLast?_cons, ih]
    rfl

/-! ### Quotes -/

theorem unescape (h : Pads s t) : Pads (unescape s) (unescape t) := by
  fun_induction Text.unescape s generalizing t with
  | case1 =>
    cases h
    exact .nil
  | case2 s ih =>
    obtain ⟨u, rfl, hu⟩ := (cons_left_iff (by decide)).1 h
    obtain ⟨v, rfl, hv⟩ := (cons_left_iff (by decide)).1 hu
    exact .cons '"' (ih hv)
  | case3 c s hpair ih =>
    cases h with
    | @cons _ _ t h =>
      have hstep : Text.unescape (c :: t) = c :: Text.unescape t := by
        refine Text.unescape.eq_3 c t ?_
        rintro u rfl rfl
        obtain ⟨v, rfl, -⟩ := cons_right (by decide) h
        exact hpair v rfl rfl
      rw [hstep]
      exact .cons c (ih h)
    | @newline blanks _ t hblanks hline h =>
      have hbackslash : '\\' ∉ blanks ++ ['\n'] := by
        simp only [List.mem_append, List.mem_singleton, not_or]
        exact ⟨fun hmem => absurd (isAllBlank_iff.1 hblanks _ hmem) (by decide), by decide⟩
      rw [List.append_cons, unescape_append_of_not_mem hbackslash, ← List.append_cons]
      exact .newline hblanks hline (ih h)

theorem unquote (h : Pads s t) : Pads (unquote s) (unquote t) := by
  by_cases hquotes : ∃ u, s = '"' :: u ++ ['"']
  · obtain ⟨u, rfl⟩ := hquotes
    obtain ⟨v, rfl, hv⟩ := (cons_left_iff (by decide)).1 h
    obtain ⟨w, rfl, hw⟩ := of_concat (by decide) hv
    rw [← List.cons_append, unquote_of_quotes, unquote_of_quotes]
    exact hw.unescape
  · have hother : ¬ ∃ v, t = '"' :: v ++ ['"'] := by
      rintro ⟨v, rfl⟩
      obtain ⟨u, rfl, hu⟩ := cons_right (by decide) h
      obtain ⟨w, rfl⟩ := List.getLast?_eq_some_iff.1 (hu.getLast?_eq.trans List.getLast?_concat)
      exact hquotes ⟨w, rfl⟩
    rwa [unquote_eq_self_iff_not_exists.2 hquotes, unquote_eq_self_iff_not_exists.2 hother]

/-! ### Trimming and splitting -/

theorem isAllBlank_eq (h : Pads s t) : isAllBlank s = isAllBlank t := by
  induction h with
  | nil => rfl
  | cons c _ ih => rw [isAllBlank_cons, isAllBlank_cons, ih]
  | newline hblanks _ _ ih =>
    rw [isAllBlank_append, isAllBlank_cons, isAllBlank_cons, hblanks, ih, Bool.true_and]

theorem trimEnd_eq_nil_iff (h : Pads s t) : trimEnd s = [] ↔ trimEnd t = [] := by
  rw [Text.trimEnd_eq_nil_iff, Text.trimEnd_eq_nil_iff, h.isAllBlank_eq]

theorem trim_eq_nil_iff (h : Pads s t) : trim s = [] ↔ trim t = [] := by
  rw [Text.trim_eq_nil_iff, Text.trim_eq_nil_iff, h.isAllBlank_eq]

theorem trimStart (h : Pads s t) : Pads (trimStart s) (trimStart t) := by
  induction h with
  | nil => exact .nil
  | cons c h ih =>
    unfold Text.trimStart at ih ⊢
    cases hc : isBlank c with
    | false =>
      rw [List.dropWhile_cons_of_neg (by simp [hc]), List.dropWhile_cons_of_neg (by simp [hc])]
      exact .cons c h
    | true => rwa [List.dropWhile_cons_of_pos hc, List.dropWhile_cons_of_pos hc]
  | newline hblanks _ _ ih =>
    unfold Text.trimStart at ih ⊢
    rwa [List.dropWhile_cons_of_pos (by decide), List.dropWhile_append_of_pos (isAllBlank_iff.1 hblanks),
      List.dropWhile_cons_of_pos (by decide)]

theorem trimEnd (h : Pads s t) : Pads (trimEnd s) (trimEnd t) := by
  induction h with
  | nil => exact .nil
  | @cons c s t h ih =>
    have hblank := h.trimEnd_eq_nil_iff
    rw [trimEnd_cons c s, trimEnd_cons c t]
    by_cases hs : Text.trimEnd s = []
    · rw [if_pos hs, if_pos (hblank.1 hs)]
      exact refl _
    · rw [if_neg hs, if_neg (mt hblank.2 hs)]
      exact .cons c ih
  | @newline blanks s t hblanks hline h ih =>
    have hblank := h.trimEnd_eq_nil_iff
    have hnewline : Text.trimEnd ['\n'] = [] := by decide
    rw [Text.trimEnd_append, trimEnd_cons '\n' s, trimEnd_cons '\n' t]
    by_cases hs : Text.trimEnd s = []
    · rw [if_pos hs, if_pos (hblank.1 hs), hnewline, if_pos rfl, Text.trimEnd_eq_nil_iff.2 hblanks]
      exact .nil
    · rw [if_neg hs, if_neg (mt hblank.2 hs), if_neg (List.cons_ne_nil _ _)]
      exact .newline hblanks hline ih

/-- Lines are the same but for the blanks at their ends. -/
theorem map_trimEnd_split (h : Pads s t) : (split '\n' s).map Text.trimEnd = (split '\n' t).map Text.trimEnd := by
  induction h with
  | nil => rfl
  | @cons c s t _ ih =>
    obtain ⟨p, ps, hp⟩ := exists_split_eq_cons '\n' s
    obtain ⟨q, qs, hq⟩ := exists_split_eq_cons '\n' t
    rw [hp, hq] at ih
    obtain ⟨hfirst, hrest⟩ := List.cons.inj ih
    rw [split_cons, split_cons, hp, hq]
    split_ifs
    · rw [List.map_cons, List.map_cons, List.map_cons, List.map_cons, hfirst, hrest]
    · rw [List.modifyHead_cons, List.modifyHead_cons, List.map_cons, List.map_cons, hrest,
        trimEnd_cons c p, trimEnd_cons c q, hfirst]
  | @newline blanks s t hblanks hline _ ih =>
    have hempty : Text.trimEnd blanks = [] := Text.trimEnd_eq_nil_iff.2 hblanks
    rw [split_append_cons, split_of_not_mem hline, split_cons, if_pos rfl, List.singleton_append, List.map_cons,
      List.map_cons, hempty, ih]
    rfl

theorem lines_eq (h : Pads s t) : lines s = lines t := by
  by_cases hs : trim s = []
  · rw [lines, lines, hs, h.trim_eq_nil_iff.1 hs]
  · rw [lines_of_trim_ne_nil hs, lines_of_trim_ne_nil (mt h.trim_eq_nil_iff.2 hs)]
    exact h.trimStart.trimEnd.map_trimEnd_split

end Pads

end OpHeaders.Text
