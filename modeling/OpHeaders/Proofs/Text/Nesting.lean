import OpHeaders.Text.Lines

/-! Well-nested texts. Every bracket has its partner, and between partners the text is well-nested
again. A text is read with the brackets that are still open behind it, so a well-nested text
can be put anywhere into another one without a change to how that one is nested. -/
namespace OpHeaders.Text

inductive Bracket where
  | round
  | curly

namespace Bracket

def opening : Bracket → Char
  | round => '('
  | curly => '{'

def closing : Bracket → Char
  | round => ')'
  | curly => '}'

end Bracket

def isBracket (c : Char) : Bool := c = '(' || c = ')' || c = '{' || c = '}'

/-- The brackets are in pairs of one kind that do not cross. -/
inductive IsNested : List Char → Prop where
  | nil : IsNested []
  | plain {c : Char} {s : List Char} : isBracket c = false → IsNested s → IsNested (c :: s)
  | pair (b : Bracket) {s t : List Char} :
    IsNested s → IsNested t → IsNested (b.opening :: (s ++ b.closing :: t))

/-! ### Reading -/

/-- The open brackets behind a character, the innermost first. A closing bracket must be the
partner of the innermost. -/
def track (bs : List Bracket) (c : Char) : Option (List Bracket) :=
  match c, bs with
  | '(', bs => some (.round :: bs)
  | '{', bs => some (.curly :: bs)
  | ')', .round :: bs => some bs
  | '}', .curly :: bs => some bs
  | ')', _ | '}', _ => none
  | _, bs => some bs

variable {s t l r : List Char} {bs bs' : List Bracket} {c : Char}

@[simp] theorem track_opening (b : Bracket) (bs : List Bracket) : track bs b.opening = some (b :: bs) := by
  cases b <;> rfl

@[simp] theorem track_closing (b : Bracket) (bs : List Bracket) : track (b :: bs) b.closing = some bs := by
  cases b <;> rfl

theorem track_of_not_isBracket (h : isBracket c = false) (bs : List Bracket) : track bs c = some bs := by
  unfold track
  split
  case h_7 => rfl
  all_goals cases h

theorem track_cases (h : track bs c = some bs') :
    (isBracket c = false ∧ bs' = bs) ∨ (∃ b : Bracket, c = b.opening ∧ bs' = b :: bs) ∨
      ∃ b : Bracket, c = b.closing ∧ bs = b :: bs' := by
  unfold track at h
  split at h
  · cases h
    exact .inr (.inl ⟨.round, rfl, rfl⟩)
  · cases h
    exact .inr (.inl ⟨.curly, rfl, rfl⟩)
  · cases h
    exact .inr (.inr ⟨.round, rfl, rfl⟩)
  · cases h
    exact .inr (.inr ⟨.curly, rfl, rfl⟩)
  · cases h
  · cases h
  · next hround hcurly _ _ hround' hcurly' =>
    cases h
    refine .inl ⟨?_, rfl⟩
    simp_all [isBracket]

/-- A well-nested text closes all that it opens, and nothing else. -/
theorem IsNested.foldlM_track (h : IsNested s) (bs : List Bracket) : s.foldlM track bs = some bs := by
  induction h generalizing bs with
  | nil => rfl
  | plain hc _ ih => simp [track_of_not_isBracket hc, ih]
  | pair b _ _ ihs iht => simp [ihs, iht]

/-- Texts that close the brackets in front of them, the innermost first, and are well-nested
besides. -/
def Closes : List Bracket → List Char → Prop
  | [], s => IsNested s
  | b :: bs, s => ∃ inner rest, IsNested inner ∧ Closes bs rest ∧ s = inner ++ b.closing :: rest

theorem Closes.plain (hc : isBracket c = false) (h : Closes bs s) : Closes bs (c :: s) := by
  cases bs with
  | nil => exact IsNested.plain hc h
  | cons b bs =>
    obtain ⟨inner, rest, hinner, hrest, rfl⟩ := h
    exact ⟨c :: inner, rest, .plain hc hinner, hrest, rfl⟩

theorem Closes.pair {b : Bracket} (h : Closes (b :: bs) s) : Closes bs (b.opening :: s) := by
  obtain ⟨inner, rest, hinner, hrest, rfl⟩ := h
  cases bs with
  | nil => exact IsNested.pair b hinner hrest
  | cons b' bs =>
    obtain ⟨inner', rest', hinner', hrest', rfl⟩ := hrest
    refine ⟨b.opening :: (inner ++ b.closing :: inner'), rest', .pair b hinner hinner', hrest', ?_⟩
    simp

theorem closes_of_foldlM_track (h : s.foldlM track bs = some []) : Closes bs s := by
  induction s generalizing bs with
  | nil =>
    cases h
    exact IsNested.nil
  | cons c s ih =>
    rw [List.foldlM_cons] at h
    obtain ⟨bs', hc, hs⟩ := Option.bind_eq_some_iff.mp h
    obtain ⟨hplain, rfl⟩ | ⟨b, rfl, rfl⟩ | ⟨b, rfl, rfl⟩ := track_cases hc
    · exact (ih hs).plain hplain
    · exact (ih hs).pair
    · exact ⟨[], s, .nil, ih hs, rfl⟩

theorem isNested_iff (s : List Char) : IsNested s ↔ s.foldlM track [] = some [] :=
  ⟨fun h => h.foldlM_track [], closes_of_foldlM_track⟩

instance (s : List Char) : Decidable (IsNested s) :=
  decidable_of_iff ((s.foldlM track []).map List.isEmpty = some true) (by simp [isNested_iff])

example : IsNested "f({ a }, (b))".toList ∧ ¬IsNested "({)}".toList ∧ ¬IsNested ")(".toList := by decide

/-! ### Putting texts together -/

/-- What is put into a text does not count if it is well-nested. -/
theorem isNested_insert_iff (hs : IsNested s) : IsNested (l ++ s ++ r) ↔ IsNested (l ++ r) := by
  simp [isNested_iff, hs.foldlM_track]

theorem IsNested.insert (h : IsNested (l ++ r)) (hs : IsNested s) : IsNested (l ++ s ++ r) :=
  (isNested_insert_iff hs).mpr h

theorem IsNested.append (hs : IsNested s) (ht : IsNested t) : IsNested (s ++ t) := by
  have h : IsNested (s ++ []) := by rwa [List.append_nil]
  simpa using h.insert ht

theorem isNested_unlines {ls : List (List Char)} (h : ∀ l ∈ ls, IsNested l) : IsNested (unlines ls) := by
  induction ls with
  | nil => exact .nil
  | cons l ls ih =>
    rw [List.forall_mem_cons] at h
    exact (h.1.append (.plain rfl .nil)).append (ih h.2)

end OpHeaders.Text
