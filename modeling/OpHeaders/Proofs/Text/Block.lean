import Mathlib.Data.List.Basic

/-! Where a sequence is cut into parts. A part whose elements are all of one kind ends where
the first element of another kind stands, and a block starts where an element of its kind
stands, so the sequence determines its parts. -/
namespace OpHeaders.Text

variable {α β γ : Type}

/-! ### Parts of one kind -/

section

variable {p : α → Bool} {xs ys xs' ys' : List α}

theorem takeWhile_append_of_head? (hxs : ∀ x ∈ xs, p x = true) (hys : ∀ y ∈ ys.head?, p y = false) :
    (xs ++ ys).takeWhile p = xs := by
  rw [List.takeWhile_append_of_pos hxs]
  cases ys with
  | nil => simp
  | cons y ys => simp [hys y rfl]

theorem append_inj_of_head? (hxs : ∀ x ∈ xs, p x = true) (hxs' : ∀ x ∈ xs', p x = true)
    (hys : ∀ y ∈ ys.head?, p y = false) (hys' : ∀ y ∈ ys'.head?, p y = false)
    (h : xs ++ ys = xs' ++ ys') : xs = xs' ∧ ys = ys' := by
  have hparts : xs = xs' := by
    rw [← takeWhile_append_of_head? hxs hys, ← takeWhile_append_of_head? hxs' hys', h]
  rw [hparts] at h
  exact ⟨hparts, List.append_cancel_left h⟩

end

/-! ### Blocks -/

variable {f : α → β} {g : α → γ}

/-- Lists with the same images under a function have the same images under any that
depends on it. -/
theorem map_eq_map_of_imp {as bs : List α} (h : ∀ a ∈ as, ∀ b ∈ bs, f a = f b → g a = g b)
    (hf : as.map f = bs.map f) : as.map g = bs.map g := by
  induction as generalizing bs with
  | nil =>
    obtain rfl : bs = [] := by simpa using hf.symm
    rfl
  | cons a as ih =>
    obtain ⟨b, cs, rfl⟩ : ∃ b cs, bs = b :: cs := by
      cases bs with
      | nil => simp at hf
      | cons b cs => exact ⟨b, cs, rfl⟩
    obtain ⟨hab, hrest⟩ := List.cons.inj hf
    rw [List.map_cons, List.map_cons, h a List.mem_cons_self b List.mem_cons_self hab,
      ih (fun x hx y hy => h x (List.mem_cons_of_mem a hx) y (List.mem_cons_of_mem b hy)) hrest]

/-- A block that starts with an element of a kind and goes on without it. -/
def IsBlock (p : β → Bool) (l : List β) : Prop := ∃ x xs, l = x :: xs ∧ p x = true ∧ ∀ y ∈ xs, p y = false

/-- A sequence of blocks determines them. -/
theorem map_eq_map_of_flatMap_eq {p : β → Bool} {f : α → List β} {as bs : List α}
    (has : ∀ a ∈ as, IsBlock p (f a)) (hbs : ∀ b ∈ bs, IsBlock p (f b))
    (h : as.flatMap f = bs.flatMap f) : as.map f = bs.map f := by
  -- what follows a block is empty or starts another one
  have hhead : ∀ cs : List α, (∀ c ∈ cs, IsBlock p (f c)) → ∀ y ∈ (cs.flatMap f).head?, (!p y) = false := by
    intro cs hcs y hy
    cases cs with
    | nil => cases hy
    | cons c cs =>
      obtain ⟨x, xs, hx, hp, -⟩ := hcs c List.mem_cons_self
      rw [List.flatMap_cons, hx, List.cons_append, List.head?_cons, Option.mem_some_iff] at hy
      simp [← hy, hp]
  induction as generalizing bs with
  | nil =>
    cases bs with
    | nil => rfl
    | cons b bs =>
      obtain ⟨x, xs, hx, -⟩ := hbs b List.mem_cons_self
      simp [hx] at h
  | cons a as ih =>
    obtain ⟨x, xs, hx, -, hxs⟩ := has a List.mem_cons_self
    cases bs with
    | nil => simp [hx] at h
    | cons b bs =>
      obtain ⟨y, ys, hy, -, hys⟩ := hbs b List.mem_cons_self
      rw [List.forall_mem_cons] at has hbs
      rw [List.flatMap_cons, List.flatMap_cons, hx, hy, List.cons_append, List.cons_append] at h
      obtain ⟨hxy, htail⟩ := List.cons.inj h
      obtain ⟨hxsys, hrest⟩ := append_inj_of_head? (by simpa using hxs) (by simpa using hys)
        (hhead as has.2) (hhead bs hbs.2) htail
      rw [List.map_cons, List.map_cons, hx, hy, hxy, hxsys, ih has.2 hbs.2 hrest]

end OpHeaders.Text
