import OpHeaders.Proofs.Text.Lines
import OpHeaders.Proofs.Text.Quoted

/-! Which lines of a text are its lines once it is trimmed. Blank lines in front of the first
one that is not and behind the last one are dropped, and all others are kept in their order. So
the empty lines that are left are the gaps of the text: its blank lines between others. Whether a
text is blank does not change when its quotes are taken off, unless there is nothing but blanks in
them. -/
namespace OpHeaders.Text

variable {s : List Char}

/-- Whether all characters of a text are blank, as in the empty one. -/
def isAllBlank (s : List Char) : Bool := s.all isBlank

/-! ### Blank texts -/

theorem isAllBlank_iff : isAllBlank s = true ↔ ∀ c ∈ s, isBlank c = true := List.all_eq_true

theorem isAllBlank_cons (c : Char) (s : List Char) : isAllBlank (c :: s) = (isBlank c && isAllBlank s) :=
  List.all_cons

theorem isAllBlank_append (s t : List Char) : isAllBlank (s ++ t) = (isAllBlank s && isAllBlank t) :=
  List.all_append

theorem trimEnd_eq_nil_iff : trimEnd s = [] ↔ isAllBlank s = true := by
  rw [trimEnd_eq, List.rdropWhile_eq_nil_iff, isAllBlank_iff]

theorem isAllBlank_trimStart (s : List Char) : isAllBlank (trimStart s) = isAllBlank s := by
  induction s with
  | nil => rfl
  | cons c s ih =>
    cases hc : isBlank c with
    | false => rw [trimStart, List.dropWhile_cons_of_neg (by simp [hc])]
    | true => rw [trimStart, List.dropWhile_cons_of_pos hc, ← trimStart, ih, isAllBlank_cons, hc, Bool.true_and]

theorem trim_eq_nil_iff : trim s = [] ↔ isAllBlank s = true := by
  rw [trim, trimEnd_eq_nil_iff, isAllBlank_trimStart]

theorem lines_of_trim_ne_nil (h : trim s ≠ []) : lines s = (split '\n' (trim s)).map trimEnd := by
  rw [lines]
  split
  · next hnil => exact absurd hnil h
  · rfl

theorem trim_ne_nil (h : isAllBlank s = false) : trim s ≠ [] := by
  rwa [ne_eq, trim_eq_nil_iff, Bool.not_eq_true]

theorem lines_of_split_trim {ms : List (List Char)} {m : List Char} (h : isAllBlank s = false)
    (hsplit : split '\n' (trim s) = ms ++ [trimEnd m]) : lines s = ms.map trimEnd ++ [trimEnd m] := by
  rw [lines_of_trim_ne_nil (trim_ne_nil h), hsplit, List.map_append, List.map_singleton, trimEnd_trimEnd]

theorem lines_eq_nil_iff : lines s = [] ↔ isAllBlank s = true := by
  rw [← trim_eq_nil_iff]
  constructor
  · intro hlines
    by_contra h
    obtain ⟨p, ps, hp⟩ := exists_split_eq_cons '\n' (trim s)
    simp [lines_of_trim_ne_nil h, hp] at hlines
  · intro h
    rw [lines, h]

theorem trimEnd_cons (c : Char) (s : List Char) :
    trimEnd (c :: s) = if trimEnd s = [] then trimEnd [c] else c :: trimEnd s := trimEnd_append [c] s

/-! ### Blanks in quotes -/

theorem isAllBlank_unescape (s : List Char) : isAllBlank (unescape s) = isAllBlank s :=
  all_unescape (by decide) (by decide) s

/-- Two double quotes with nothing but blanks between them. -/
def IsQuotedBlank (s : List Char) : Prop := ∃ blanks, isAllBlank blanks = true ∧ s = '"' :: blanks ++ ['"']

/-- These are the texts that are blank once their quotes are taken off, but not before. -/
theorem isQuotedBlank_iff : IsQuotedBlank s ↔ isAllBlank s = false ∧ isAllBlank (unquote s) = true := by
  have hquote : isBlank '"' = false := by decide
  constructor
  · rintro ⟨blanks, hblanks, rfl⟩
    refine ⟨by rw [List.cons_append, isAllBlank_cons, hquote, Bool.false_and], ?_⟩
    rwa [unquote_of_quotes, isAllBlank_unescape]
  · rintro ⟨hs, hblank⟩
    rcases unquote_cases s with ⟨blanks, rfl, hunquote⟩ | hsame
    · rw [hunquote, isAllBlank_unescape] at hblank
      exact ⟨blanks, hblank, rfl⟩
    · rw [hsame] at hblank
      exact absurd (hblank.symm.trans hs) (by decide)

theorem isAllBlank_unquote (h : isAllBlank s = true) : isAllBlank (unquote s) = true := by
  rcases unquote_cases s with ⟨u, rfl, -⟩ | hsame
  · exact absurd (isAllBlank_iff.1 h '"' List.mem_cons_self) (by decide)
  · rwa [hsame]

/-- For all other texts the quotes do not matter. -/
theorem not_isQuotedBlank_iff :
    ¬ IsQuotedBlank s ↔ (isAllBlank s = false ↔ isAllBlank (unquote s) = false) := by
  rw [isQuotedBlank_iff]
  cases hs : isAllBlank s with
  | true => simp [isAllBlank_unquote hs]
  | false => simp

/-! ### Trimming a text of several lines -/

/-- Trimming the start drops blank lines and trims the line behind them. -/
theorem exists_split_trimStart (s : List Char) : ∃ before l ls, split '\n' s = before ++ l :: ls ∧
    (∀ b ∈ before, isAllBlank b = true) ∧ split '\n' (trimStart s) = trimStart l :: ls := by
  induction s with
  | nil => exact ⟨[], [], [], rfl, by simp, rfl⟩
  | cons c s ih =>
    cases hc : isBlank c with
    | false =>
      obtain ⟨p, ps, hp⟩ := exists_split_eq_cons '\n' s
      have hline : split '\n' (c :: s) = (c :: p) :: ps := by
        rw [split_cons, if_neg (by rintro rfl; revert hc; decide), hp, List.modifyHead_cons]
      have htrim : ∀ t, trimStart (c :: t) = c :: t := fun t => List.dropWhile_cons_of_neg (by simp [hc])
      exact ⟨[], c :: p, ps, hline, by simp, by rw [htrim, htrim, hline]⟩
    | true =>
      have htrim : ∀ t, trimStart (c :: t) = trimStart t := fun t => List.dropWhile_cons_of_pos hc
      obtain ⟨before, l, ls, hs, hbefore, hrest⟩ := ih
      by_cases hn : c = '\n'
      · -- the line that ends here is blank
        refine ⟨[] :: before, l, ls, by rw [split_cons, if_pos hn, hs, List.cons_append], ?_, by rw [htrim, hrest]⟩
        exact List.forall_mem_cons.2 ⟨rfl, hbefore⟩
      · cases before with
        | nil =>
          refine ⟨[], c :: l, ls, by rw [split_cons, if_neg hn, hs]; rfl, by simp, ?_⟩
          rw [htrim, htrim, hrest]
        | cons b bs =>
          refine ⟨(c :: b) :: bs, l, ls, by rw [split_cons, if_neg hn, hs]; rfl, ?_, by rw [htrim, hrest]⟩
          rw [List.forall_mem_cons] at hbefore ⊢
          exact ⟨by rw [isAllBlank_cons, hc, Bool.true_and]; exact hbefore.1, hbefore.2⟩

theorem isAllBlank_of_mem_split {l : List Char} (h : isAllBlank s = true) (hl : l ∈ split '\n' s) :
    isAllBlank l = true :=
  isAllBlank_iff.2 fun c hc => isAllBlank_iff.1 h c ((isInfix_of_mem_split hl).subset hc)

/-- A character in front of a blank text is the only one that may not be blank. -/
theorem exists_split_cons_of_isAllBlank (c : Char) (h : isAllBlank s = true) : ∃ l after,
    split '\n' (c :: s) = l :: after ∧ (∀ a ∈ after, isAllBlank a = true) ∧ trimEnd l = trimEnd [c] := by
  have hall : ∀ l ∈ split '\n' s, isAllBlank l = true := fun l hl => isAllBlank_of_mem_split h hl
  by_cases hn : c = '\n'
  · subst hn
    exact ⟨[], split '\n' s, by rw [split_cons, if_pos rfl], hall, by decide⟩
  · obtain ⟨p, ps, hp⟩ := exists_split_eq_cons '\n' s
    rw [hp, List.forall_mem_cons] at hall
    refine ⟨c :: p, ps, by rw [split_cons, if_neg hn, hp]; rfl, hall.2, ?_⟩
    rw [trimEnd_cons, if_pos (trimEnd_eq_nil_iff.2 hall.1)]

/-- Trimming the end drops blank lines and trims the line in front of them, which is not blank unless
the whole text is. -/
theorem exists_split_trimEnd (s : List Char) : ∃ ls l after, split '\n' s = ls ++ l :: after ∧
    (∀ a ∈ after, isAllBlank a = true) ∧ split '\n' (trimEnd s) = ls ++ [trimEnd l] ∧
    (trimEnd s ≠ [] → trimEnd l ≠ []) := by
  induction s with
  | nil => exact ⟨[], [], [], rfl, by simp, rfl, fun h => h⟩
  | cons c s ih =>
    by_cases hblank : trimEnd s = []
    · obtain ⟨l, after, hs, hafter, hl⟩ := exists_split_cons_of_isAllBlank c (trimEnd_eq_nil_iff.1 hblank)
      have hnot : '\n' ∉ trimEnd [c] := fun h => by
        obtain rfl := List.mem_singleton.1 ((isPrefix_trimEnd [c]).subset h)
        exact absurd h (by decide)
      rw [trimEnd_cons, if_pos hblank, split_of_not_mem hnot, ← hl]
      exact ⟨[], l, after, hs, hafter, rfl, fun h => h⟩
    · obtain ⟨ls, l, after, hs, hafter, hrest, hlast⟩ := ih
      have hl := hlast hblank
      rw [trimEnd_cons, if_neg hblank, split_cons, split_cons, hs, hrest]
      by_cases hn : c = '\n'
      · exact ⟨[] :: ls, l, after, by rw [if_pos hn, List.cons_append], hafter,
          by rw [if_pos hn, List.cons_append], fun _ => hl⟩
      · rw [if_neg hn, if_neg hn]
        cases ls with
        | nil =>
          have hline : trimEnd (c :: l) = c :: trimEnd l := by rw [trimEnd_cons, if_neg hl]
          refine ⟨[], c :: l, after, rfl, hafter, by rw [hline]; rfl, fun _ => ?_⟩
          rw [hline]
          exact List.cons_ne_nil _ _
        | cons m ms => exact ⟨(c :: m) :: ms, l, after, rfl, hafter, rfl, fun _ => hl⟩

/-! ### Gaps -/

/-- The lines of a text are those from the first to the last one that is not blank. -/
theorem exists_split_eq (h : isAllBlank s = false) : ∃ before l ls after,
    split '\n' s = before ++ (l :: ls) ++ after ∧ (∀ b ∈ before, isAllBlank b = true) ∧
    (∀ a ∈ after, isAllBlank a = true) ∧ isAllBlank l = false ∧ lines s = trim l :: ls.map trimEnd := by
  have hfirst : ∀ (m : List Char) (ms : List (List Char)), lines s = trim m :: ms → isAllBlank m = false := by
    intro m ms hlines
    rw [← Bool.not_eq_true, ← trim_eq_nil_iff]
    exact fun hnil => (isTidy_lines s).head (by rw [hlines, hnil]; rfl)
  obtain ⟨before, l, ls, hs, hbefore, hstart⟩ := exists_split_trimStart s
  obtain ⟨ms, m, after, hparts, hafter, hend, -⟩ := exists_split_trimEnd (trimStart s)
  have hlines := lines_of_split_trim h hend
  rw [hstart] at hparts
  cases ms with
  | nil =>
    obtain ⟨rfl, rfl⟩ := List.cons.inj hparts
    exact ⟨before, l, [], ls, by simpa using hs, hbefore, hafter, hfirst l [] hlines, hlines⟩
  | cons x xs =>
    obtain ⟨rfl, rfl⟩ := List.cons.inj hparts
    have hall : lines s = trim l :: (xs ++ [m]).map trimEnd := by
      rw [hlines, List.map_cons, List.cons_append, List.map_append, List.map_singleton]
      rfl
    exact ⟨before, l, xs ++ [m], after, by simpa using hs, hbefore, hafter, hfirst _ _ hall, hall⟩

theorem getLast?_lines_ne (s : List Char) : (lines s).getLast? ≠ some [] := by
  cases h : isAllBlank s with
  | true => simp [lines_eq_nil_iff.2 h]
  | false =>
    obtain ⟨ms, m, after, -, -, hend, hlast⟩ := exists_split_trimEnd (trimStart s)
    rw [lines_of_split_trim h hend, List.getLast?_concat]
    exact fun heq => hlast (trim_ne_nil h) (Option.some.inj heq)

/-- A text is blank if all its lines are. -/
theorem exists_mem_split_iff : (∃ l ∈ split '\n' s, isAllBlank l = false) ↔ isAllBlank s = false := by
  constructor
  · rintro ⟨l, hl, hblank⟩
    rw [← Bool.not_eq_true] at hblank ⊢
    exact mt (fun h => isAllBlank_of_mem_split h hl) hblank
  · intro h
    obtain ⟨before, l, ls, after, hs, -, -, hl, -⟩ := exists_split_eq h
    exact ⟨l, by simp [hs], hl⟩

/-- Whether a text has a blank line between two that are not, with `i` lines in front of it from the
first one on that is not blank. -/
def IsGap (s : List Char) (i : Nat) : Prop :=
  ∃ front l rest, split '\n' s = front ++ l :: rest ∧ isAllBlank l = true ∧
    (∃ m ∈ front, isAllBlank m = false) ∧ (∃ m ∈ rest, isAllBlank m = false) ∧
    (front.dropWhile isAllBlank).length = i

theorem not_isGap_of_isAllBlank (h : isAllBlank s = true) (i : Nat) : ¬ IsGap s i := by
  rintro ⟨front, l, rest, hs, -, ⟨m, hm, hblank⟩, -⟩
  have hall := isAllBlank_of_mem_split h (hs ▸ List.mem_append_left _ hm)
  exact absurd (hall.symm.trans hblank) (by decide)

/-- The empty ones among the lines of a text are its gaps. -/
theorem isGap_of_getElem?_lines {i : Nat} (h : (lines s)[i]? = some []) : IsGap s i := by
  have hne : isAllBlank s = false := by
    rw [← Bool.not_eq_true, ← lines_eq_nil_iff]
    intro hnil
    simp [hnil] at h
  obtain ⟨before, l, ls, after, hs, hbefore, -, hl, hlines⟩ := exists_split_eq hne
  have hlast := getLast?_lines_ne s
  have hhead := (isTidy_lines s).head
  rw [hlines] at h hlast hhead
  cases i with
  | zero => exact absurd h hhead
  | succ i =>
    rw [List.getElem?_cons_succ, List.getElem?_map, Option.map_eq_some_iff] at h
    obtain ⟨b, hb, hblank⟩ := h
    obtain ⟨us, vs, rfl, hi⟩ : ∃ us vs, ls = us ++ b :: vs ∧ us.length = i := by
      obtain ⟨hi, rfl⟩ := List.getElem?_eq_some_iff.1 hb
      exact ⟨ls.take i, ls.drop (i + 1), by rw [← List.drop_eq_getElem_cons hi, List.take_append_drop],
        List.length_take_of_le hi.le⟩
    refine ⟨before ++ l :: us, b, vs ++ after, by simpa using hs, trimEnd_eq_nil_iff.1 hblank,
      ⟨l, by simp, hl⟩, ?_, ?_⟩
    · -- the last line is not blank, so it is behind the gap
      rcases List.eq_nil_or_concat vs with rfl | ⟨ws, x, rfl⟩
      · simp [List.getLast?_cons, hblank] at hlast
      · refine ⟨x, by simp, ?_⟩
        rw [← Bool.not_eq_true, ← trimEnd_eq_nil_iff]
        exact fun hnil => hlast (by simp [List.getLast?_cons, hnil])
    · rw [List.dropWhile_append_of_pos hbefore, List.dropWhile_cons_of_neg (by simp [hl]), List.length_cons, hi]

end OpHeaders.Text
