import Mathlib.Logic.Basic
import Mathlib.Tactic.SplitIfs
import OpHeaders.Text.Quoted

/-! What taking off quotes does to a text. It changes what stands between two double quotes and
nothing else, and of that the pairs of a backslash and a double quote only, so it leaves what stands
in front of the first backslash, and whether all characters are of a kind to which the backslash
and the double quote do not belong. A text that was quoted becomes what it was before. -/
namespace OpHeaders.Text

theorem unescape_append_of_not_mem {s : List Char} (h : '\\' ∉ s) (t : List Char) :
    unescape (s ++ t) = s ++ unescape t := by
  induction s with
  | nil => rfl
  | cons c s ih =>
    rw [List.mem_cons, not_or] at h
    have hstep : unescape (c :: (s ++ t)) = c :: unescape (s ++ t) :=
      unescape.eq_3 c (s ++ t) fun _ hc _ => h.1 hc.symm
    rw [List.cons_append, hstep, ih h.2, List.cons_append]

/-- A pair of a backslash and a double quote is of the same kind as the double quote. -/
theorem all_unescape {p : Char → Bool} (hquote : p '"' = false) (hbackslash : p '\\' = false) (s : List Char) :
    (unescape s).all p = s.all p := by
  fun_induction unescape s with
  | case1 => rfl
  | case2 s _ => simp [hquote, hbackslash]
  | case3 c s _ ih => rw [List.all_cons, List.all_cons, ih]

theorem length_unescape_le (s : List Char) : (unescape s).length ≤ s.length := by
  fun_induction unescape s with
  | case1 => exact Nat.le_refl 0
  | case2 s ih => simp only [List.length_cons]; omega
  | case3 c s _ ih => simpa using ih

/-! ### Taking off quotes -/

theorem unquote_of_quotes (s : List Char) : unquote ('"' :: s ++ ['"']) = unescape s := by
  simp [unquote]

theorem unquote_cases (t : List Char) :
    (∃ s, t = '"' :: s ++ ['"'] ∧ unquote t = unescape s) ∨ unquote t = t := by
  unfold unquote
  split
  · split_ifs with hlast
    · obtain ⟨s, rfl⟩ := List.getLast?_eq_some_iff.1 hlast
      exact .inl ⟨s, rfl, by rw [List.dropLast_concat]⟩
    · exact .inr rfl
  · exact .inr rfl

/-- Only what stands between two double quotes is changed, since it becomes shorter. -/
theorem unquote_eq_self_iff_not_exists {t : List Char} : unquote t = t ↔ ¬ ∃ s, t = '"' :: s ++ ['"'] := by
  constructor
  · rintro h ⟨s, rfl⟩
    have hle := length_unescape_le s
    rw [unquote_of_quotes] at h
    rw [h, List.length_append, List.length_cons] at hle
    omega
  · intro h
    exact (unquote_cases t).resolve_left fun ⟨s, hs, _⟩ => h ⟨s, hs⟩

/-- A single double quote is both the first character and the last one, but no pair. -/
theorem exists_quotes_iff {t : List Char} : (∃ s, t = '"' :: s ++ ['"']) ↔
    (t.head? = some '"' ∧ t.getLast? = some '"') ∧ t ≠ ['"'] := by
  constructor
  · rintro ⟨s, rfl⟩
    exact ⟨⟨rfl, List.getLast?_concat⟩, by simp⟩
  · rintro ⟨⟨hhead, hlast⟩, hne⟩
    obtain ⟨u, rfl⟩ := List.head?_eq_some_iff.1 hhead
    obtain ⟨v, hv⟩ := List.getLast?_eq_some_iff.1 hlast
    cases v with
    | nil => exact absurd hv hne
    | cons c s =>
      obtain ⟨rfl, -⟩ := List.cons.inj hv
      exact ⟨s, hv⟩

/-! ### Quoted texts -/

/-- No double quote is left alone, so a backslash in the text itself is not taken for one that
was put there. -/
theorem head?_escape_ne (s : List Char) : (escape s).head? ≠ some '"' := by
  fun_cases escape s with
  | case1 => simp
  | case2 s => simp
  | case3 c s hc => simpa using hc

theorem unescape_escape (s : List Char) : unescape (escape s) = s := by
  fun_induction escape s with
  | case1 => rfl
  | case2 s ih => rw [unescape, ih]
  | case3 c s _ ih =>
    have hpair : ∀ t, c = '\\' → escape s ≠ '"' :: t := by
      rintro t - ht
      exact head?_escape_ne s (by rw [ht, List.head?_cons])
    rw [unescape.eq_3 c (escape s) hpair, ih]

theorem unquote_quote (s : List Char) : unquote (quote s) = s := by
  rw [quote, unquote_of_quotes, unescape_escape]

/-- **Quoting undone.** Every text is found again in its quotes, whatever quotes and backslashes it has;
and exactly the texts stay as they are that do not have a double quote at each end, or are a
single one. -/
theorem unquote_quote_and_eq_self_iff (s t : List Char) :
    unquote (quote s) = s ∧
      (unquote t = t ↔ ¬ (t.head? = some '"' ∧ t.getLast? = some '"') ∨ t = ['"']) := by
  refine ⟨unquote_quote s, ?_⟩
  rw [unquote_eq_self_iff_not_exists, exists_quotes_iff, not_and_or, not_not]

end OpHeaders.Text
