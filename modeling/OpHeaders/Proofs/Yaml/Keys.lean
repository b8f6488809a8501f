import Mathlib.Tactic.SplitIfs
import OpHeaders.Yaml.Value.Expand

/-! Documents denote values in which no mapping has a key twice: a mapping with the same key
twice is refused where it is found, and scalars contain no mapping. -/
namespace OpHeaders.Yaml

namespace Value

/-- No mapping in the value has a key twice, mappings inside of keys among them. -/
inductive HasDistinctKeys : Value → Prop where
  | null : HasDistinctKeys .null
  | bool (b : Bool) : HasDistinctKeys (.bool b)
  | number (n : Number) : HasDistinctKeys (.number n)
  | string (s : String) : HasDistinctKeys (.string s)
  | sequence {items : List Value} : (∀ v ∈ items, HasDistinctKeys v) → HasDistinctKeys (.sequence items)
  | mapping {es : List (Value × Value)} : distinctKeys es = true →
    (∀ e ∈ es, HasDistinctKeys e.1) → (∀ e ∈ es, HasDistinctKeys e.2) → HasDistinctKeys (.mapping es)
  | tagged (tag : String) {v : Value} : HasDistinctKeys v → HasDistinctKeys (.tagged tag v)

attribute [simp] HasDistinctKeys.null HasDistinctKeys.bool HasDistinctKeys.number HasDistinctKeys.string

@[simp]
theorem hasDistinctKeys_mapping_iff {es : List (Value × Value)} : HasDistinctKeys (.mapping es) ↔
    distinctKeys es = true ∧ (∀ e ∈ es, e.1.HasDistinctKeys) ∧ ∀ e ∈ es, e.2.HasDistinctKeys := by
  constructor
  · rintro ⟨⟩
    exact ⟨‹_›, ‹_›, ‹_›⟩
  · rintro ⟨hdistinct, hkeys, hvalues⟩
    exact .mapping hdistinct hkeys hvalues

theorem distinctKeys_iff_pairwise (es : List (Value × Value)) :
    distinctKeys es = true ↔ es.Pairwise fun e f => same e.1 f.1 = false := by
  induction es with
  | nil => simp [distinctKeys]
  | cons e es ih => simp [distinctKeys, ih, List.pairwise_cons]

end Value

variable {v : Value}

/-! ### Scalars -/

theorem hasDistinctKeys_of_resolvePlain? {s : String} (h : resolvePlain? s = some v) : v.HasDistinctKeys := by
  unfold resolvePlain? at h
  repeat' split at h
  all_goals cases h
  all_goals simp

theorem hasDistinctKeys_of_resolve? {tag : Option Tag} {style : Style} {s : String}
    (h : resolve? tag style s = some v) : v.HasDistinctKeys := by
  have hstyle : ∀ w, (if style = .plain then resolvePlain? s else some (.string s)) = some w →
      w.HasDistinctKeys := by
    intro w
    split
    · exact hasDistinctKeys_of_resolvePlain?
    · rintro ⟨⟩
      simp
  unfold resolve? at h
  generalize (if style = .plain then resolvePlain? s else some (.string s)) = byStyle at h hstyle
  dsimp only at h
  split at h
  · exact hstyle v h
  · split_ifs at h
    · obtain ⟨b, -, rfl⟩ := Option.map_eq_some_iff.mp h
      simp
    · split at h
      · cases h
        simp
      · cases h
    · obtain ⟨x, -, rfl⟩ := Option.map_eq_some_iff.mp h
      simp
    · cases h
      simp
    · exact hstyle v h
    · cases h
      simp

/-! ### Nodes -/

theorem bind_run_eq_some_iff {α β : Type} {x : Expansion α} {f : α → Expansion β} {n : Nat} {r : β × Nat} :
    (x >>= f).run n = some r ↔ ∃ a m, x.run n = some (a, m) ∧ (f a).run m = some r := by
  simp [StateT.run_bind, Option.bind_eq_some_iff]

theorem pure_run_eq_some_iff {α : Type} {a : α} {n : Nat} {r : α × Nat} :
    (pure a : Expansion α).run n = some r ↔ r = (a, n) := by
  simp [StateT.run_pure, eq_comm]

theorem forall_mem_of_mapM {α β : Type} {f : α → Expansion β} {P : β → Prop}
    (hf : ∀ a n b m, (f a).run n = some (b, m) → P b) (l : List α) {n m : Nat} {bs : List β}
    (h : (l.mapM f).run n = some (bs, m)) : ∀ b ∈ bs, P b := by
  induction l generalizing n bs with
  | nil =>
    rw [List.mapM_nil, pure_run_eq_some_iff] at h
    cases h
    exact fun _ hb => absurd hb List.not_mem_nil
  | cons a l ih =>
    simp only [List.mapM_cons, bind_run_eq_some_iff, pure_run_eq_some_iff] at h
    obtain ⟨b, k, hb, cs, k', hcs, ⟨⟩⟩ := h
    exact List.forall_mem_cons.mpr ⟨hf a n b k hb, ih hcs⟩

theorem hasDistinctKeys_underTag (tag : Option Tag) (h : v.HasDistinctKeys) :
    (underTag tag v).HasDistinctKeys := by
  unfold underTag
  split
  · exact .tagged _ h
  · exact h

theorem hasDistinctKeys_of_scalar {tag : Option Tag} {w? : Option Value} {k m : Nat}
    (h : (match w? with
      | some w => do let value ← pure w; pure (underTag tag value)
      | none => do let value ← failure; pure (underTag tag value) : Expansion Value).run k = some (v, m))
    (hw : ∀ w, w? = some w → w.HasDistinctKeys) : v.HasDistinctKeys := by
  split at h
  · next w =>
    simp only [bind_run_eq_some_iff, pure_run_eq_some_iff] at h
    obtain ⟨_, _, ⟨⟩, ⟨⟩⟩ := h
    exact hasDistinctKeys_underTag tag (hw w rfl)
  · cases h

theorem Document.hasDistinctKeys_of_expand (d : Document) (depth : Nat) (n : Node) {k m : Nat}
    (h : (d.expand depth n).run k = some (v, m)) : v.HasDistinctKeys := by
  induction depth generalizing n k m v with
  | zero =>
    rw [expand] at h
    simp only [bind_run_eq_some_iff] at h
    obtain ⟨n', k', -, h⟩ := h
    cases n' with
    | scalar tag style text => exact hasDistinctKeys_of_scalar h fun w => hasDistinctKeys_of_resolve?
    | _ => cases h
  | succ depth ih =>
    rw [expand] at h
    simp only [bind_run_eq_some_iff] at h
    obtain ⟨n', k', -, h⟩ := h
    cases n' with
    | scalar tag style text => exact hasDistinctKeys_of_scalar h fun w => hasDistinctKeys_of_resolve?
    | sequence tag items =>
      simp only [bind_run_eq_some_iff, pure_run_eq_some_iff] at h
      obtain ⟨vs, _, hvs, _, _, ⟨⟩, ⟨⟩⟩ := h
      exact hasDistinctKeys_underTag tag (.sequence (forall_mem_of_mapM (fun n _ _ _ => ih n) items hvs))
    | mapping tag entries =>
      simp only [bind_run_eq_some_iff] at h
      obtain ⟨es, _, hes, h⟩ := h
      have hmem : ∀ e ∈ es, e.1.HasDistinctKeys ∧ e.2.HasDistinctKeys := by
        refine forall_mem_of_mapM (fun e k b m he => ?_) entries hes
        simp only [bind_run_eq_some_iff, pure_run_eq_some_iff] at he
        obtain ⟨key, _, hkey, value, _, hvalue, ⟨⟩⟩ := he
        exact ⟨ih e.1 hkey, ih e.2 hvalue⟩
      split at h
      · next hdistinct =>
        simp only [bind_run_eq_some_iff, pure_run_eq_some_iff] at h
        obtain ⟨_, _, ⟨⟩, ⟨⟩⟩ := h
        exact hasDistinctKeys_underTag tag
          (.mapping hdistinct (fun e he => (hmem e he).1) fun e he => (hmem e he).2)
      · cases h
    | «alias» => cases h

/-- What a text denotes has no key twice in any mapping. -/
theorem Value.hasDistinctKeys_of_ofText? {text : String} (h : Value.ofText? text = some v) :
    v.HasDistinctKeys := by
  obtain ⟨d, -, h⟩ := Option.bind_eq_some_iff.mp h
  unfold Document.value? at h
  split at h
  · cases h
    exact .null
  · obtain ⟨⟨w, m⟩, hexpand, rfl⟩ := Option.map_eq_some_iff.mp h
    exact d.hasDistinctKeys_of_expand maxDepth _ hexpand

end OpHeaders.Yaml
