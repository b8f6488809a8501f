import OpHeaders.Proofs.Files.Plain
import OpHeaders.Proofs.Files.Rewriting

/-! What the reading of a plain path depends on: on the files that are in its way, and on the
entry at its end. The directories above do not matter, since without them there is no entry;
only a name that is too long is found to be so just if the directories in front of it exist. -/
namespace OpHeaders.Files

namespace Tree

variable {t t' : Tree} {here l : Location} {n : String} {ns : List String}

/-! ### Missing entries -/

theorem isDirectory_of_find?_cons {e : Entry} (h : t.find? (n :: l) = some e) : t.IsDirectory l :=
  isDirectory_iff.2 (t.rooted n l e h)

/-- There is nothing below what is missing. -/
theorem find?_append_eq_none (h : t.find? l = none) (k : Location) : t.find? (k ++ l) = none := by
  induction k with
  | nil => exact h
  | cons n k ih =>
    cases he : t.find? (n :: k ++ l) with
    | none => rfl
    | some e =>
      have hdir : t.find? (k ++ l) = some .directory := isDirectory_of_find?_cons he
      rw [ih] at hdir
      cases hdir

theorem isDirectory_of_content?_eq_none (hsome : t.find? l ≠ none) (h : t.content? l = none) :
    t.IsDirectory l := by
  cases he : t.find? l with
  | none => exact absurd he hsome
  | some e =>
    cases e with
    | directory => exact he
    | file content => rw [content?, he] at h; cases h

/-! ### Following plain names -/

/-- Whether a file is in the way of names, as far as none of them is too long. -/
def isBarred (t : Tree) (here : Location) : List String → Bool
  | [] => false
  | n :: ns => (t.content? here).isSome || (!FilePath.isTooLong n && t.isBarred (n :: here) ns)

theorem isBarred_cons_eq_false (h : t.isBarred here (n :: ns) = false) :
    t.content? here = none ∧ (FilePath.isTooLong n = false → t.isBarred (n :: here) ns = false) := by
  simpa [isBarred] using h

theorem isBarred_of_find?_eq_none (h : t.find? here = none) : t.isBarred here ns = false := by
  induction ns generalizing here with
  | nil => rfl
  | cons n ns ih =>
    have hcontent : t.content? here = none := by rw [content?, h]
    have hnext : t.find? (n :: here) = none := find?_append_eq_none h [n]
    rw [isBarred, hcontent, ih hnext]
    simp

/-- Only the files before the last name matter. -/
theorem isBarred_congr (h : ∀ ms, ms <+: ns → ms ≠ ns →
    t'.content? (ms.reverse ++ here) = t.content? (ms.reverse ++ here)) :
    t'.isBarred here ns = t.isBarred here ns := by
  induction ns generalizing here with
  | nil => rfl
  | cons n ns ih =>
    have hhere := h [] List.nil_prefix (List.cons_ne_nil n ns).symm
    have hrest : t'.isBarred (n :: here) ns = t.isBarred (n :: here) ns := ih fun ms hms hne => by
      have hmore := h (n :: ms) (List.cons_prefix_cons.2 ⟨rfl, hms⟩) (by simpa using hne)
      simpa using hmore
    rw [List.reverse_nil, List.nil_append] at hhere
    rw [isBarred, isBarred, hrest, hhere]

section Follow

variable (hns : ∀ n ∈ ns, n ≠ "." ∧ n ≠ "..")

include hns

theorem follow_of_isBarred (h : t.isBarred here ns = true) : t.follow here ns = .error .notDirectory := by
  induction ns generalizing here with
  | nil => cases h
  | cons n ns ih =>
    rw [List.forall_mem_cons] at hns
    rw [follow, if_neg hns.1.1, if_neg hns.1.2]
    cases hcontent : t.content? here with
    | some content =>
      have hfile : ¬t.IsDirectory here := fun hdir => by
        rw [content?_eq_none hdir] at hcontent
        cases hcontent
      rw [if_pos hfile]
    | none =>
      rw [isBarred, hcontent] at h
      have hshort : FilePath.isTooLong n = false := by
        by_contra hlong
        simp [hlong] at h
      have hbarred : t.isBarred (n :: here) ns = true := by simpa [hshort] using h
      -- what is missing is not in the way
      cases he : t.find? (n :: here) with
      | none =>
        rw [isBarred_of_find?_eq_none he] at hbarred
        cases hbarred
      | some e =>
        rw [if_neg (not_not_intro (isDirectory_of_find?_cons he)), hshort]
        exact ih hns.2 hbarred

/-- If nothing is in the way, the entry at the end is reached if it exists. -/
theorem follow_of_not_isBarred (hshort : ∀ n ∈ ns, FilePath.isTooLong n = false)
    (hsome : t.find? here ≠ none) (h : t.isBarred here ns = false) :
    t.follow here ns =
      if t.find? (ns.reverse ++ here) = none then .error .notFound else .ok (ns.reverse ++ here) := by
  induction ns generalizing here with
  | nil => rw [follow, List.reverse_nil, List.nil_append, if_neg hsome]
  | cons n ns ih =>
    rw [List.forall_mem_cons] at hns hshort
    obtain ⟨hcontent, hrest⟩ := isBarred_cons_eq_false h
    have hdir : t.IsDirectory here := isDirectory_of_content?_eq_none hsome hcontent
    rw [follow, if_neg (not_not_intro hdir), if_neg hns.1.1, if_neg hns.1.2, hshort.1, List.reverse_cons,
      List.append_assoc]
    cases he : t.find? (n :: here) with
    | none =>
      have hnone : t.find? (ns.reverse ++ ([n] ++ here)) = none := find?_append_eq_none he _
      rw [if_pos hnone]
      rfl
    | some e => exact ih hns.2 hshort.2 (by simp [he]) (hrest hshort.1)

/-- A name that is too long is not reached if a directory in front of it is missing. -/
theorem follow_of_isTooLong (hlong : ∃ n ∈ ns, FilePath.isTooLong n = true) (hsome : t.find? here ≠ none)
    (h : t.isBarred here ns = false) :
    t.follow here ns = .error .notFound ∨ t.follow here ns = .error .nameTooLong := by
  induction ns generalizing here with
  | nil =>
    obtain ⟨n, hn, -⟩ := hlong
    exact absurd hn List.not_mem_nil
  | cons n ns ih =>
    rw [List.forall_mem_cons] at hns
    obtain ⟨hcontent, hrest⟩ := isBarred_cons_eq_false h
    have hdir : t.IsDirectory here := isDirectory_of_content?_eq_none hsome hcontent
    rw [follow, if_neg (not_not_intro hdir), if_neg hns.1.1, if_neg hns.1.2]
    cases hn : FilePath.isTooLong n with
    | true => exact .inr rfl
    | false =>
      have hlong : ∃ m ∈ ns, FilePath.isTooLong m = true := by simpa [hn] using hlong
      cases he : t.find? (n :: here) with
      | none => exact .inl rfl
      | some e => exact ih hns.2 hlong (by simp [he]) (hrest hn)

/-- A path is followed through directories. -/
theorem follow_of_isDirectory (hshort : ∀ n ∈ ns, FilePath.isTooLong n = false)
    (h : ∀ ms, ms <+: ns → t.IsDirectory (ms.reverse ++ here)) :
    t.follow here ns = .ok (ns.reverse ++ here) := by
  induction ns generalizing here with
  | nil => rfl
  | cons n ns ih =>
    rw [List.forall_mem_cons] at hns hshort
    have hhere : t.IsDirectory here := h [] List.nil_prefix
    have hnext : t.find? (n :: here) = some .directory :=
      h [n] (List.cons_prefix_cons.2 ⟨rfl, List.nil_prefix⟩)
    have hrest : t.follow (n :: here) ns = .ok (ns.reverse ++ n :: here) := ih hns.2 hshort.2 fun ms hms => by
      simpa using h (n :: ms) (List.cons_prefix_cons.2 ⟨rfl, hms⟩)
    rw [follow, if_neg (not_not_intro hhere), if_neg hns.1.1, if_neg hns.1.2, hshort.1, hnext]
    simpa using hrest

end Follow

/-! ### Reading -/

variable {p : FilePath}

theorem locate_eq (hp : p.IsPlain) (t : Tree) :
    t.locate p = match p.fault? with
      | some f => .error f
      | none => t.follow [] p.names := by
  rw [locate, hp.endsInSlash_eq]
  rfl

theorem find?_nil_ne_none (t : Tree) : t.find? [] ≠ none := Option.some_ne_none _

/-- A path without names that are too long reads the same in trees with the same files in its
way and the same entry at its end. -/
theorem read_congr (hp : p.IsPlain) (hshort : ∀ n ∈ p.names, FilePath.isTooLong n = false)
    (hway : t'.isBarred [] p.names = t.isBarred [] p.names)
    (hend : t'.find? p.location = t.find? p.location) : t'.read p = t.read p := by
  have hnames := hp.ne_of_mem_names
  have hfollow : t'.follow [] p.names = t.follow [] p.names := by
    cases hbarred : t.isBarred [] p.names with
    | true => rw [follow_of_isBarred hnames hbarred, follow_of_isBarred hnames (hway.trans hbarred)]
    | false =>
      rw [hp.location_eq] at hend
      rw [follow_of_not_isBarred hnames hshort t.find?_nil_ne_none hbarred,
        follow_of_not_isBarred hnames hshort t'.find?_nil_ne_none (hway.trans hbarred), List.append_nil, hend]
  have hlocate : t'.locate p = t.locate p := by rw [locate_eq hp, locate_eq hp, hfollow]
  rw [read, read, hlocate]
  cases hl : t.locate p with
  | error f => rfl
  | ok l =>
    obtain rfl : p.location = l := by
      rw [locate_eq hp] at hl
      split at hl
      · cases hl
      · exact follow_eq_ok hl
    simp only [hend]

/-- A path with a name that is too long is never read. Trees with the same files in its way
agree on the fault, unless there is no such file: then the name is found to be too long, or is
not found. -/
theorem read_of_isTooLong (hp : p.IsPlain) (hlong : ∃ n ∈ p.names, FilePath.isTooLong n = true)
    (hway : t'.isBarred [] p.names = t.isBarred [] p.names) :
    (∃ f, t.read p = .error f ∧ t'.read p = .error f) ∨
      (t.read p = .error .notFound ∨ t.read p = .error .nameTooLong) ∧
        (t'.read p = .error .notFound ∨ t'.read p = .error .nameTooLong) := by
  have hnames := hp.ne_of_mem_names
  cases hfault : p.fault? with
  | some f =>
    have hread : ∀ t : Tree, t.read p = .error f := fun t => by rw [read, locate_eq hp, hfault]
    exact .inl ⟨f, hread t, hread t'⟩
  | none =>
    have hread : ∀ (t : Tree) (f : Fault), t.follow [] p.names = .error f → t.read p = .error f :=
      fun t f hf => by rw [read, locate_eq hp, hfault, hf]
    cases hbarred : t.isBarred [] p.names with
    | true =>
      have hfollow := follow_of_isBarred hnames hbarred
      have hfollow' := follow_of_isBarred hnames (hway.trans hbarred)
      exact .inl ⟨_, hread t _ hfollow, hread t' _ hfollow'⟩
    | false =>
      have hcases : ∀ t : Tree, t.isBarred [] p.names = false →
          t.read p = .error .notFound ∨ t.read p = .error .nameTooLong := fun t ht =>
        (follow_of_isTooLong hnames hlong t.find?_nil_ne_none ht).imp (hread t _) (hread t _)
      exact .inr ⟨hcases t hbarred, hcases t' (hway.trans hbarred)⟩

end Tree

end OpHeaders.Files
