import OpHeaders.Proofs.Text.Block
import OpHeaders.Proofs.Text.Lines

/-! Words over the letters and digits of ASCII and the underscore. A word at the start of
a text ends where the first other character stands, so it can be told from what follows. -/
namespace OpHeaders.Text

def isWordChar (c : Char) : Bool := c.isAlphanum || c = '_'

/-- Texts without other characters, the empty one among them. -/
def IsWord (s : String) : Prop := ∀ c ∈ s.toList, isWordChar c = true

instance (s : String) : Decidable (IsWord s) := List.decidableBAll (fun c => isWordChar c = true) s.toList

theorem IsWord.not_mem {s : String} (hs : IsWord s) {c : Char} (hc : isWordChar c = false) : c ∉ s.toList :=
  fun h => Bool.false_ne_true (hc.symm.trans (hs c h))

theorem IsWord.append_inj {s t : String} {rest more : List Char} (hs : IsWord s) (ht : IsWord t)
    (hrest : ∀ c ∈ rest.head?, isWordChar c = false) (hmore : ∀ c ∈ more.head?, isWordChar c = false)
    (h : s.toList ++ rest = t.toList ++ more) : s = t ∧ rest = more := by
  obtain ⟨hst, htail⟩ := append_inj_of_head? hs ht hrest hmore h
  exact ⟨String.toList_inj.1 hst, htail⟩

theorem IsWord.append {s t : String} (hs : IsWord s) (ht : IsWord t) : IsWord (s ++ t) := by
  intro c hc
  rw [String.toList_append] at hc
  exact (List.mem_append.1 hc).elim (hs c) (ht c)

/-- A piece of a word is a word. -/
theorem IsWord.trimmed {s : String} (hs : IsWord s) : IsWord (trimmed s) := by
  intro c hc
  rw [Text.trimmed, String.toList_ofList] at hc
  exact hs c ((isInfix_trim s.toList).subset hc)

end OpHeaders.Text
