import Mathlib.Data.List.Perm.Basic
import OpHeaders.Proofs.Yaml.Keys

/-! Looking up a name among the entries of a mapping. The first entry under the name counts; where no
key stands twice, it is the only one, and the order of the entries does not matter. -/
namespace OpHeaders.Yaml.Value

variable {es es' : List (Value × Value)} {name : String} {key v : Value}

theorem field?_cons_self (name : String) (v : Value) (es : List (Value × Value)) :
    field? name ((.string name, v) :: es) = some v := by
  simp [field?]

theorem field?_cons_of_ne (h : key ≠ .string name) (v : Value) (es : List (Value × Value)) :
    field? name ((key, v) :: es) = field? name es := by
  cases key <;> simp_all [field?]

theorem field?_append (name : String) (es es' : List (Value × Value)) :
    field? name (es ++ es') = (field? name es).or (field? name es') := by
  rw [field?, List.find?_append, Option.map_or]
  rfl

/-- A name that is no key twice has the value that stands under it anywhere. -/
theorem field?_eq_some_iff_mem (hes : es.Pairwise fun e f => ¬(e.1 = .string name ∧ f.1 = .string name)) :
    field? name es = some v ↔ (.string name, v) ∈ es := by
  induction es with
  | nil => exact iff_of_false (by rintro ⟨⟩) List.not_mem_nil
  | cons e es ih =>
    obtain ⟨key, w⟩ := e
    rw [List.pairwise_cons] at hes
    rw [List.mem_cons]
    by_cases hkey : key = .string name
    · subst hkey
      rw [field?_cons_self]
      constructor
      · rintro ⟨⟩
        exact .inl rfl
      · rintro (heq | hmem)
        · cases heq
          rfl
        · exact absurd ⟨rfl, rfl⟩ (hes.1 _ hmem)
    · rw [field?_cons_of_ne hkey, ih hes.2]
      constructor
      · exact .inr
      · rintro (heq | hmem)
        · cases heq
          exact absurd rfl hkey
        · exact hmem

theorem field?_eq_of_perm (hdistinct : distinctKeys es = true) (h : es.Perm es') (name : String) :
    field? name es = field? name es' := by
  have hes : es.Pairwise fun e f => ¬(e.1 = .string name ∧ f.1 = .string name) := by
    rw [distinctKeys_iff_pairwise] at hdistinct
    refine hdistinct.imp fun {e f} hsame => ?_
    rintro ⟨he, hf⟩
    simp [he, hf, same] at hsame
  have hes' := (h.pairwise_iff fun {e f} hef => mt And.symm hef).mp hes
  apply Option.ext
  intro v
  rw [field?_eq_some_iff_mem hes, field?_eq_some_iff_mem hes', h.mem_iff]

end OpHeaders.Yaml.Value
