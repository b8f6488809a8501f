import Mathlib.Algebra.GroupWithZero.Nat
import Mathlib.Data.List.Forall2
import OpHeaders.Proofs.Yaml.Keys

/-! Counting the aliases that a reader follows. A reader that follows a fixed number of them wherever it
succeeds can be understood as if aliases were free, and their numbers add up beside. -/
namespace OpHeaders.Yaml

variable {α β : Type} {limit i j : Nat} {P Q : α → Prop} {x : Expansion α}

/-- The reader has the results in `P` and follows `jumps` aliases for each, unless these take it beyond
the limit. -/
def Reads (limit : Nat) (x : Expansion α) (jumps : Nat) (P : α → Prop) : Prop :=
  ∀ k ≤ limit, ∀ a k', x.run k = some (a, k') ↔ P a ∧ k' = k + jumps ∧ k' ≤ limit

namespace Reads

theorem congr (h : Reads limit x i P) (hij : i = j) (hPQ : ∀ a, P a ↔ Q a) : Reads limit x j Q := by
  subst hij
  intro k hk a k'
  rw [h k hk, hPQ]

theorem pure (a : α) : Reads limit (pure a) 0 (· = a) := by
  intro k hk b k'
  rw [pure_run_eq_some_iff]
  simp only [Prod.mk.injEq, Nat.add_zero]
  constructor
  · rintro ⟨rfl, rfl⟩
    exact ⟨rfl, rfl, hk⟩
  · rintro ⟨rfl, rfl, -⟩
    exact ⟨rfl, rfl⟩

theorem failure (jumps : Nat) : Reads limit (failure : Expansion α) jumps fun _ => False := by
  intro k _ a k'
  simp only [false_and, iff_false]
  rintro ⟨⟩

theorem bind {f : α → Expansion β} {R : α → β → Prop} (hx : Reads limit x i P)
    (hf : ∀ a, P a → Reads limit (f a) j (R a)) :
    Reads limit (x >>= f) (i + j) fun b => ∃ a, P a ∧ R a b := by
  intro k hk b k'
  rw [bind_run_eq_some_iff]
  constructor
  · rintro ⟨a, m, ha, hb⟩
    obtain ⟨hP, rfl, hm⟩ := (hx k hk a m).mp ha
    obtain ⟨hR, rfl, hk'⟩ := (hf a hP _ hm b k').mp hb
    exact ⟨⟨a, hP, hR⟩, Nat.add_assoc k i j, hk'⟩
  · rintro ⟨⟨a, hP, hR⟩, rfl, hk'⟩
    have hm : k + i ≤ limit := by omega
    exact ⟨a, k + i, (hx k hk a _).mpr ⟨hP, rfl, hm⟩, (hf a hP _ hm b _).mpr ⟨hR, by omega, hk'⟩⟩

theorem bind_eq {f : α → Expansion β} {a : α} {Q : β → Prop} (hx : Reads limit x i (· = a))
    (hf : Reads limit (f a) j Q) : Reads limit (x >>= f) (i + j) Q := by
  have hf' : ∀ a', a' = a → Reads limit (f a') j Q := by
    rintro a' rfl
    exact hf
  exact (hx.bind hf').congr rfl fun b => exists_eq_left

theorem mapM {f : α → Expansion β} {cost : α → Nat} {R : α → β → Prop} {l : List α}
    (h : ∀ a ∈ l, Reads limit (f a) (cost a) (R a)) :
    Reads limit (l.mapM f) (l.map cost).sum (List.Forall₂ R l) := by
  induction l with
  | nil =>
    rw [List.mapM_nil]
    exact (Reads.pure []).congr rfl fun bs => List.forall₂_nil_left_iff.symm
  | cons a l ih =>
    rw [List.forall_mem_cons] at h
    rw [List.mapM_cons]
    refine ((h.1).bind fun b _ => (ih h.2).bind fun bs _ => Reads.pure (b :: bs)).congr ?_ fun cs => ?_
    · rw [Nat.add_zero, List.map_cons, List.sum_cons]
    · simp only [List.forall₂_cons_left_iff, exists_and_left]

end Reads

/-! ### Aliases -/

/-- What a node stands for. -/
def Document.meant? (d : Document) : Node → Option Node
  | .alias slot => d.node? slot
  | n => some n

/-- How many aliases a node itself is. -/
def Node.jumps : Node → Nat
  | .alias _ => 1
  | _ => 0

/-- That many aliases may be followed in a document. -/
def Document.maxJumps (d : Document) : Nat := maxJumpsPerUnit * d.size

theorem Document.follow_alias_run (d : Document) (slot k : Nat) : (d.follow (.alias slot)).run k =
    if d.maxJumps < k + 1 then none else (d.node? slot).map (·, k + 1) := by
  have hrun : (d.follow (.alias slot)).run k = StateT.run
      (if d.maxJumps < k + 1 then failure else (d.node? slot).elim failure pure : Expansion Node) (k + 1) := by
    rw [Document.follow]
    cases d.node? slot <;> rfl
  rw [hrun]
  split_ifs
  · rfl
  · cases d.node? slot <;> rfl

theorem Document.reads_follow (d : Document) (n : Node) :
    Reads d.maxJumps (d.follow n) n.jumps (d.meant? n = some ·) := by
  cases n with
  | «alias» slot =>
    intro k hk m k'
    rw [follow_alias_run, meant?, Node.jumps]
    split_ifs with hlimit
    · refine iff_of_false (by rintro ⟨⟩) ?_
      rintro ⟨-, rfl, hk'⟩
      exact absurd hlimit (Nat.not_lt.mpr hk')
    · simp only [Option.map_eq_some_iff, Prod.mk.injEq]
      constructor
      · rintro ⟨m, hm, rfl, rfl⟩
        exact ⟨hm, rfl, Nat.not_lt.mp hlimit⟩
      · rintro ⟨hm, rfl, -⟩
        exact ⟨m, hm, rfl, rfl⟩
  | _ => exact (Reads.pure _).congr rfl fun m => by simp [meant?, eq_comm]

end OpHeaders.Yaml
