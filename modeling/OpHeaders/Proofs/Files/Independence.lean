import OpHeaders.Files.Access
import OpHeaders.Proofs.Files.Forecast

/-! Reads and writes that do not meet. A write adds to a tree the directories on its way and the
file at its end. If no file is written where the other one has to pass, and no directory is
made where it ends, then the other one goes the same way, and their order does not matter. -/
namespace OpHeaders.Files

/-! ### Actions that commute -/

/-- Both actions give what they give alone, and both orders lead to the same state. -/
structure Commutes {σ α β : Type} (f : StateM σ α) (g : StateM σ β) : Prop where
  fst : ∀ s, (f (g s).2).1 = (f s).1
  snd : ∀ s, (g (f s).2).1 = (g s).1
  state : ∀ s, (g (f s).2).2 = (f (g s).2).2

namespace Commutes

variable {σ α β γ : Type} {f : StateM σ α} {g : StateM σ β} {k : α → StateM σ γ}

theorem symm (h : Commutes f g) : Commutes g f where
  fst := h.snd
  snd := h.fst
  state s := (h.state s).symm

theorem pure (a : α) (g : StateM σ β) : Commutes (Pure.pure a : StateM σ α) g where
  fst _ := rfl
  snd _ := rfl
  state _ := rfl

/-- An action commutes with a sequence if it does with each part. -/
theorem bind (hf : Commutes f g) (hk : ∀ a, Commutes (k a) g) : Commutes (f >>= k) g where
  fst s := by
    change (k (f (g s).2).1 (f (g s).2).2).1 = (k (f s).1 (f s).2).1
    rw [hf.fst, ← hf.state, (hk (f s).1).fst]
  snd s := by
    change (g (k (f s).1 (f s).2).2).1 = (g s).1
    rw [(hk (f s).1).snd, hf.snd]
  state s := by
    change (g (k (f s).1 (f s).2).2).2 = (k (f (g s).2).1 (f (g s).2).2).2
    rw [(hk (f s).1).state, hf.state, hf.fst]

end Commutes

namespace Tree

variable {t : Tree} {l : Location} {p q : FilePath} {content : ByteArray}

/-! ### Where a write changes nothing -/

theorem content?_write (hl : l ≠ p.location) : (t.write p content).2.content? l = t.content? l := by
  obtain ⟨t₁, hgrows, ⟨f, h⟩ | ⟨t₂, hputs, h⟩⟩ := write_cases t p content
  · rw [h]
    exact hgrows.content?_eq l
  · rw [h, hputs.content?_eq, if_neg hl]
    exact hgrows.content?_eq l

theorem find?_write (hl : l ≠ p.location) (hpass : ¬p.Passes l) :
    (t.write p content).2.find? l = t.find? l := by
  obtain ⟨t₁, hgrows, h⟩ := write_cases t p content
  have hfind : t₁.find? l = t.find? l := by
    rcases hgrows.find?_eq l with heq | ⟨-, -, hthrough⟩
    · exact heq
    · exact absurd hthrough hpass
  rcases h with ⟨f, h⟩ | ⟨t₂, hputs, h⟩
  · rw [h, hfind]
  · rw [h, hputs.find?_eq, if_neg hl, hfind]

/-! ### Paths that do not meet -/

theorem ne_location_of_isPrefix (hq : q.IsPlain) (hqp : ¬q.Covers p) {ms : List String}
    (hms : ms <+: p.names) : ms.reverse ++ [] ≠ q.location := by
  rw [hq.location_eq, List.append_nil, Ne, List.reverse_inj]
  rintro rfl
  exact hqp hms

theorem location_ne (hp : p.IsPlain) (hq : q.IsPlain) (hqp : ¬q.Covers p) : p.location ≠ q.location := by
  rw [hp.location_eq, ← List.append_nil p.names.reverse]
  exact ne_location_of_isPrefix hq hqp (List.prefix_refl _)

theorem isPrefix_of_passes (hp : p.IsPlain) (hq : q.IsPlain) (h : p.Passes q.location) :
    q.names <+: p.names.dropLast := by
  obtain ⟨ms, hms, heq⟩ := h
  have hplain : ∀ n ∈ ms, n ≠ "." ∧ n ≠ ".." := fun n hn =>
    hp.ne_of_mem_names n (List.dropLast_subset _ (hms.subset hn))
  rw [foldl_enter hplain, hq.location_eq, List.append_nil, List.reverse_inj] at heq
  rwa [← heq]

/-- A write changes the entry at the end of a path only if it ends there or passes there. -/
theorem find?_location_write (hp : p.IsPlain) (hq : q.IsPlain) (hqp : ¬q.Covers p)
    (hpq : ¬p.names <+: q.names.dropLast) :
    (t.write q content).2.find? p.location = t.find? p.location :=
  find?_write (location_ne hp hq hqp) fun hpass => hpq (isPrefix_of_passes hq hp hpass)

/-- A write puts a file in the way of a path only if it covers the path. -/
theorem isBarred_write (hq : q.IsPlain) (hqp : ¬q.Covers p) :
    (t.write q content).2.isBarred [] p.names = t.isBarred [] p.names :=
  isBarred_congr fun _ hms _ => content?_write (ne_location_of_isPrefix hq hqp hms)

theorem read_write (hp : p.IsPlain) (hshort : ∀ n ∈ p.names, FilePath.isTooLong n = false) (hq : q.IsPlain)
    (hqp : ¬q.Covers p) (hpq : ¬p.names <+: q.names.dropLast) :
    (t.write q content).2.read p = t.read p :=
  read_congr hp hshort (isBarred_write hq hqp) (find?_location_write hp hq hqp hpq)

theorem forecast_write (hp : p.IsFile) (hq : q.IsFile) (hpq : ¬p.Covers q) (hqp : ¬q.Covers p) :
    (t.write q content).2.forecast p = t.forecast p := by
  have hsurvey : (t.write q content).2.survey [] p.names.dropLast = t.survey [] p.names.dropLast :=
    survey_congr fun ms hms _ =>
      content?_write (ne_location_of_isPrefix hq.isPlain hqp (hms.trans (List.dropLast_prefix _)))
  have hend : (t.write q content).2.find? p.location = t.find? p.location :=
    find?_location_write hp.isPlain hq.isPlain hqp fun h => hpq (h.trans (List.dropLast_prefix _))
  have hrefusal : (t.write q content).2.refusal? p = t.refusal? p :=
    refusal?_congr (by rw [IsDirectory, IsDirectory, hend])
  simp only [forecast, start_write, hsurvey, hrefusal]

theorem mem_survey_of_mem_forecast (h : l ∈ (t.forecast p).2) : l ∈ (t.survey [] p.names.dropLast).2 := by
  unfold forecast at h
  split at h
  · cases h
  · next hsurvey => rwa [hsurvey]
  · next hsurvey =>
    rw [hsurvey]
    split_ifs at h
    · exact h
    · split at h <;> exact h

/-- A path that does not cover another one does not end on its way. -/
theorem location_not_mem_forecast (hp : p.IsPlain) (hpq : ¬p.Covers q) : p.location ∉ (t.forecast q).2 :=
  fun h => hpq ((isPrefix_of_location_mem_survey hp (mem_survey_of_mem_forecast h)).trans
    (List.dropLast_prefix _))

/-! ### Their order -/

theorem access_read (p : FilePath) (t : Tree) : access.read p t = (t.read p, t) := by
  simp only [access]

theorem access_write (p : FilePath) (s : String) (t : Tree) : access.write p s t = t.write p s.toUTF8 := by
  simp only [access]

theorem commutes_read_read (p q : FilePath) : Commutes (access.read p) (access.read q) where
  fst _ := rfl
  snd _ := rfl
  state _ := rfl

theorem commutes_read_write (hp : p.IsPlain) (hshort : ∀ n ∈ p.names, FilePath.isTooLong n = false)
    (hq : q.IsPlain) (hqp : ¬q.Covers p) (hpq : ¬p.names <+: q.names.dropLast) (s : String) :
    Commutes (access.read p) (access.write q s) where
  fst t := by
    rw [access_write, access_read, access_read]
    exact read_write hp hshort hq hqp hpq
  snd t := by rw [access_read]
  state t := by rw [access_read, access_read]

theorem commutes_write_write (hp : p.IsFile) (hq : q.IsFile) (hpq : ¬p.Covers q) (hqp : ¬q.Covers p)
    (s u : String) : Commutes (access.write p s) (access.write q u) where
  fst t := by
    rw [access_write, access_write, access_write, (write_eq _ hp _).1, (write_eq _ hp t).1,
      forecast_write hp hq hpq hqp]
  snd t := by
    rw [access_write, access_write, access_write, (write_eq _ hq _).1, (write_eq _ hq t).1,
      forecast_write hq hp hqp hpq]
  state t := by
    have hne := location_ne hp.isPlain hq.isPlain hqp
    have hp' := location_not_mem_forecast (t := t) hp.isPlain hpq
    have hq' := location_not_mem_forecast (t := t) hq.isPlain hqp
    rw [access_write, access_write, access_write, access_write]
    refine ext_entries (by simp only [start_write]) fun l => ?_
    rw [(write_eq _ hq _).2, (write_eq _ hp t).2, (write_eq _ hp _).2, (write_eq _ hq t).2,
      forecast_write hp hq hpq hqp, forecast_write hq hp hqp hpq]
    -- the files are at different places, and no directory is made where one of them is
    by_cases hlp : l = p.location
    · subst hlp
      simp [hne, hp']
    · by_cases hlq : l = q.location
      · subst hlq
        simp [hlp, hq']
      · simp only [hlp, hlq, and_false, if_false]
        split_ifs <;> rfl

end Tree

end OpHeaders.Files
