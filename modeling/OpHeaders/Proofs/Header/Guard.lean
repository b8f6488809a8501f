import OpHeaders.Header.Text
import OpHeaders.Proofs.Text.UpperCase

/-! The macro that guards a header against being included twice. It is the upper case of start and
base name together, so headers share their guard if and only if these differ in nothing but the
case of letters, wherever the one ends and the other begins. -/
namespace OpHeaders.Header

open Text (IsWord isWordChar isPrintable_of_isWordChar upperCase EqUpToCase)

def isGuardChar (c : Char) : Bool := c.isUpper || c.isDigit || c = '_'

/-- Names that a macro may have. -/
structure IsMacroName (s : List Char) : Prop where
  start : ∃ c ∈ s.head?, c.isDigit = false
  chars : ∀ c ∈ s, isWordChar c = true

/-! ### Characters -/

theorem isGuardChar_toUpper {c : Char} (hc : isWordChar c = true) : isGuardChar c.toUpper = true :=
  Text.forall_of_isPrintable (P := fun c => isWordChar c = true → isGuardChar c.toUpper = true) (by decide)
    (isPrintable_of_isWordChar hc) hc

theorem isDigit_toUpper {c : Char} (hc : isWordChar c = true) : c.toUpper.isDigit = c.isDigit :=
  Text.forall_of_isPrintable (P := fun c => c.toUpper.isDigit = c.isDigit) (by decide) (isPrintable_of_isWordChar hc)

theorem isWordChar_of_isGuardChar {c : Char} (hc : isGuardChar c = true) : isWordChar c = true := by
  simp only [isGuardChar, isWordChar, Char.isAlphanum, Char.isAlpha, Bool.or_eq_true] at hc ⊢
  tauto

/-! ### Guards -/

theorem guardMacro_eq (start base : String) : guardMacro start base = upperCase (start ++ base).toList ++ ['_', 'H'] := by
  rw [guardMacro, Text.upperCase_append, String.toList_append]
  rfl

variable {start base start' base' : String}

theorem guardMacro_eq_map (h : IsWord (start ++ base)) :
    guardMacro start base = (start ++ base).toList.map Char.toUpper ++ ['_', 'H'] := by
  rw [guardMacro_eq, Text.upperCase_of_isPrintable fun c hc => isPrintable_of_isWordChar (h c hc)]

theorem isGuardChar_of_mem_guardMacro (h : IsWord (start ++ base)) :
    ∀ c ∈ guardMacro start base, isGuardChar c = true := by
  have hend : ['_', 'H'].all isGuardChar = true := by decide
  rw [guardMacro_eq_map h, List.forall_mem_append, List.forall_mem_map]
  exact ⟨fun c hc => isGuardChar_toUpper (h c hc), List.all_eq_true.mp hend⟩

theorem isMacroName_guardMacro_iff (h : IsWord (start ++ base)) :
    IsMacroName (guardMacro start base) ↔ ∀ c ∈ (start ++ base).toList.head?, c.isDigit = false := by
  have hchars : ∀ c ∈ guardMacro start base, isWordChar c = true := fun c hc =>
    isWordChar_of_isGuardChar (isGuardChar_of_mem_guardMacro h c hc)
  have hstart : (∃ c ∈ (guardMacro start base).head?, c.isDigit = false) ↔
      ∀ c ∈ (start ++ base).toList.head?, c.isDigit = false := by
    rw [guardMacro_eq_map h]
    cases hs : (start ++ base).toList with
    | nil => simp
    | cons c s =>
      have hc := isDigit_toUpper (h c (hs ▸ List.mem_cons_self))
      simp [hc]
  exact ⟨fun hname => hstart.mp hname.start, fun hdigit => ⟨hstart.mpr hdigit, hchars⟩⟩

theorem guardMacro_eq_iff_eqUpToCase (h : IsWord (start ++ base)) (h' : IsWord (start' ++ base')) :
    guardMacro start base = guardMacro start' base' ↔
      EqUpToCase (start ++ base).toList (start' ++ base').toList := by
  rw [guardMacro_eq, guardMacro_eq, List.append_cancel_right_eq]
  exact Text.upperCase_eq_iff (fun c hc => isPrintable_of_isWordChar (h c hc))
    fun c hc => isPrintable_of_isWordChar (h' c hc)

/-- **Guards.** If start and base name are words, the guard is in upper case, and it is a macro name unless
they start with a digit. Two guards are the same if and only if start and base name together are
the same up to case, so with the same start if and only if the base names are. -/
theorem guardMacro_collides_iff (hstart : IsWord start) (hbase : IsWord base) (hstart' : IsWord start')
    (hbase' : IsWord base') :
    (∀ c ∈ guardMacro start base, isGuardChar c = true) ∧
    (IsMacroName (guardMacro start base) ↔ ∀ c ∈ (start ++ base).toList.head?, c.isDigit = false) ∧
    (guardMacro start base = guardMacro start' base' ↔
      EqUpToCase (start ++ base).toList (start' ++ base').toList) ∧
    (guardMacro start base = guardMacro start base' ↔ EqUpToCase base.toList base'.toList) := by
  have hword := hstart.append hbase
  have hsame := guardMacro_eq_iff_eqUpToCase hword (hstart.append hbase')
  rw [String.toList_append, String.toList_append, Text.eqUpToCase_append_left_iff] at hsame
  exact ⟨isGuardChar_of_mem_guardMacro hword, isMacroName_guardMacro_iff hword,
    guardMacro_eq_iff_eqUpToCase hword (hstart'.append hbase'), hsame⟩

/-- Start and base name may be cut in different places. -/
theorem guardMacro_collides_recut :
    (IsWord "inc_a" ∧ IsWord "pi_v2" ∧ IsWord "INC_" ∧ IsWord "Api_V2") ∧
    IsMacroName (guardMacro "inc_a" "pi_v2") ∧ guardMacro "inc_a" "pi_v2" = guardMacro "INC_" "Api_V2" ∧
    guardMacro "inc_a" "pi_v2" ≠ guardMacro "inc_a" "Api_V2" := by
  have hstart : IsWord "inc_a" := by decide
  have hbase : IsWord "pi_v2" := by decide
  have hstart' : IsWord "INC_" := by decide
  have hbase' : IsWord "Api_V2" := by decide
  obtain ⟨-, hname, hrecut, hsame⟩ := guardMacro_collides_iff hstart hbase hstart' hbase'
  have hletter : ∀ c ∈ ("inc_a" ++ "pi_v2").toList.head?, c.isDigit = false := by
    rintro c ⟨⟩
    rfl
  exact ⟨⟨hstart, hbase, hstart', hbase'⟩, hname.mpr hletter, hrecut.mpr (by decide), mt hsame.mp (by decide)⟩

/-- Letters outside ASCII may share their upper case with two others. -/
example : guardMacro "p_" "ß" = guardMacro "p_" "ss" := by decide +kernel

end OpHeaders.Header
