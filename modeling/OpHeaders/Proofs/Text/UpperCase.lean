import Mathlib
import OpHeaders.Proofs.Text.Printable
import OpHeaders.Text.UpperCase

/-! Upper-casing in ASCII. Every character has one upper case there, and two characters have the same
one if and only if they have the same lower case, so the upper cases of two texts are the same if
and only if the texts are the same but for the case of their letters. -/
namespace OpHeaders.Text

variable {s t : List Char}

/-- Whether texts are the same but for the case of the letters of ASCII. -/
def EqUpToCase (s t : List Char) : Prop := s.map Char.toLower = t.map Char.toLower

instance (s t : List Char) : Decidable (EqUpToCase s t) :=
  inferInstanceAs (Decidable (s.map Char.toLower = t.map Char.toLower))

example : EqUpToCase "inc_API".toList "INC_api".toList ∧ ¬ EqUpToCase "ab".toList "a_b".toList := by decide

theorem map_toUpper_eq_iff : s.map Char.toUpper = t.map Char.toUpper ↔ EqUpToCase s t := by
  have hlower : ∀ u : List Char, (u.map Char.toUpper).map Char.toLower = u.map Char.toLower := by simp
  have hupper : ∀ u : List Char, (u.map Char.toLower).map Char.toUpper = u.map Char.toUpper := by simp
  constructor
  · intro h
    rw [EqUpToCase, ← hlower s, h, hlower t]
  · intro h
    rw [← hupper s, h, hupper t]

theorem eqUpToCase_append_left_iff (u : List Char) : EqUpToCase (u ++ s) (u ++ t) ↔ EqUpToCase s t := by
  rw [EqUpToCase, List.map_append, List.map_append, List.append_cancel_left_eq, EqUpToCase]

theorem upperCase_append (s t : List Char) : upperCase (s ++ t) = upperCase s ++ upperCase t :=
  List.flatMap_append

theorem upperChar_of_isPrintable {c : Char} (hc : isPrintable c = true) : upperChar c = [c.toUpper] :=
  if_pos ((isPrintable_iff.mp hc).2.trans_lt (by decide))

theorem upperCase_of_isPrintable (hs : ∀ c ∈ s, isPrintable c = true) : upperCase s = s.map Char.toUpper := by
  rw [upperCase, List.flatMap_congr fun c hc => upperChar_of_isPrintable (hs c hc), List.map_eq_flatMap]

theorem upperCase_eq_iff (hs : ∀ c ∈ s, isPrintable c = true) (ht : ∀ c ∈ t, isPrintable c = true) :
    upperCase s = upperCase t ↔ EqUpToCase s t := by
  rw [upperCase_of_isPrintable hs, upperCase_of_isPrintable ht, map_toUpper_eq_iff]

end OpHeaders.Text
