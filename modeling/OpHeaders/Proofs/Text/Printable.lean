import OpHeaders.Proofs.Text.Gaps
import OpHeaders.Proofs.Text.Word
import OpHeaders.Text.Width

/-! Texts in the printable characters of ASCII. Each of their characters takes one column, and of
these characters only the space is blank, so trimming takes nothing but the spaces that such
a text is padded with. -/
namespace OpHeaders.Text

/-- The characters of ASCII from the space to the tilde. -/
def isPrintable (c : Char) : Bool := ' ' ≤ c && c ≤ '~'

/-- Told from the characters of the text, not from all there are. -/
instance (s : List Char) : Decidable (∀ c ∈ s, isPrintable c = true) :=
  List.decidableBAll (fun c => isPrintable c = true) s

variable {c : Char} {s : List Char}

theorem isPrintable_iff : isPrintable c = true ↔ 32 ≤ c.toNat ∧ c.toNat ≤ 126 := by
  simp only [isPrintable, Bool.and_eq_true, decide_eq_true_eq, Char.le_def, UInt32.le_iff_toNat_le]
  rfl

/-- What holds of each of them can be told one by one. -/
theorem forall_of_isPrintable {P : Char → Prop} (h : ∀ n < 127, 32 ≤ n → P (Char.ofNat n))
    (hc : isPrintable c = true) : P c := by
  obtain ⟨hlow, hhigh⟩ := isPrintable_iff.mp hc
  simpa using h c.toNat (by omega) hlow

theorem isPrintable_of_isWordChar (h : isWordChar c = true) : isPrintable c = true := by
  have hrange : ∀ low high : Char, isPrintable low = true → isPrintable high = true →
      low.val ≤ c.val ∧ c.val ≤ high.val → isPrintable c = true := by
    rintro low high hlow hhigh ⟨hle, hge⟩
    rw [isPrintable_iff] at hlow hhigh ⊢
    rw [UInt32.le_iff_toNat_le] at hle hge
    exact ⟨hlow.1.trans hle, hge.trans hhigh.2⟩
  rw [isWordChar, Bool.or_eq_true, decide_eq_true_eq] at h
  rcases h with halphanum | rfl
  · rcases Bool.or_eq_true_iff.mp halphanum with halpha | hdigit
    · rcases Bool.or_eq_true_iff.mp halpha with hupper | hlower
      · exact hrange 'A' 'Z' (by decide) (by decide) (of_decide_eq_true hupper)
      · exact hrange 'a' 'z' (by decide) (by decide)
          ((Bool.and_eq_true_iff.mp hlower).imp of_decide_eq_true of_decide_eq_true)
    · exact hrange '0' '9' (by decide) (by decide)
        ((Bool.and_eq_true_iff.mp hdigit).imp of_decide_eq_true of_decide_eq_true)
  · decide

/-- The space is the only blank one. -/
theorem isBlank_of_isPrintable (hc : isPrintable c = true) (hspace : c ≠ ' ') : isBlank c = false :=
  forall_of_isPrintable (P := fun c => c ≠ ' ' → isBlank c = false) (by decide) hc hspace

/-- A text without spaces at its ends is what trimming leaves of it between spaces. -/
theorem trim_padded (hs : ∀ c ∈ s, isPrintable c = true) (hfirst : s.head? ≠ some ' ')
    (hlast : s.getLast? ≠ some ' ') (n : Nat) : trim (' ' :: s ++ List.replicate n ' ') = s := by
  have hpadding : isAllBlank (List.replicate n ' ') = true := by
    rw [isAllBlank_iff]
    intro c hc
    rw [List.eq_of_mem_replicate hc]
    rfl
  have hend : trimEnd (s ++ List.replicate n ' ') = s := by
    rw [trimEnd_append, if_pos (trimEnd_eq_nil_iff.mpr hpadding), trimEnd_eq_self_iff]
    intro c hc
    exact isBlank_of_isPrintable (hs c (List.mem_of_getLast? hc)) fun h => hlast (h ▸ hc)
  cases s with
  | nil =>
    rw [trim_eq_nil_iff]
    exact hpadding
  | cons c s =>
    have hc : isBlank c = false :=
      isBlank_of_isPrintable (hs c List.mem_cons_self) fun h => hfirst (congrArg some h)
    have hstart : trimStart (' ' :: (c :: s) ++ List.replicate n ' ') = c :: s ++ List.replicate n ' ' := by
      rw [List.cons_append, trimStart, List.dropWhile_cons_of_pos rfl, List.cons_append,
        List.dropWhile_cons_of_neg (by simp [hc])]
    rw [trim, hstart, hend]

theorem readColumns_of_isPrintable (hc : isPrintable c = true) : readColumns c ⟨.none, none⟩ = (1, ⟨.none, none⟩) := by
  have hlow : c.toNat < 0xa1 := by
    have := isPrintable_iff.mp hc
    omega
  simp [readColumns, readUnselected, hlow]

/-- Characters that take one column and do not belong to anything around them. -/
theorem width_of_isPrintable (hs : ∀ c ∈ s, isPrintable c = true) : width s = s.length := by
  have hfold : s.foldr (fun c (r : Int × Surroundings) => (r.1 + (readColumns c r.2).1, (readColumns c r.2).2))
      (0, ⟨.none, none⟩) = ((s.length : Int), ⟨.none, none⟩) := by
    induction s with
    | nil => rfl
    | cons c s ih =>
      rw [List.forall_mem_cons] at hs
      rw [List.foldr_cons, ih hs.2, readColumns_of_isPrintable hs.1]
      rfl
  exact congrArg (·.1.toNat) hfold

end OpHeaders.Text
