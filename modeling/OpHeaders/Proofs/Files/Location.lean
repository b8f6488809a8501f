import Mathlib.Data.List.DropRight
import OpHeaders.Files.Tree.Writing
import OpHeaders.Proofs.Text.Lines

/-! Where a path leads in a tree that has every directory on it, and what it passes. In
any tree a path leads there or nowhere. The directory of a path leads along the path. -/
namespace OpHeaders.Files

/-- One name further. Above the top is the top. -/
def enter (here : Location) (n : String) : Location :=
  if n = "." then here else if n = ".." then here.tail else n :: here

theorem enter_of_ne {n : String} (here : Location) (h1 : n ≠ ".") (h2 : n ≠ "..") :
    enter here n = n :: here := by
  rw [enter, if_neg h1, if_neg h2]

/-- The names lead through `l`, or start or end there. -/
def Through (here : Location) (ns : List String) (l : Location) : Prop :=
  ∃ ms, ms <+: ns ∧ ms.foldl enter here = l

theorem through_here (here : Location) (ns : List String) : Through here ns here :=
  ⟨[], List.nil_prefix, rfl⟩

theorem through_enter (here : Location) (n : String) (ns : List String) :
    Through here (n :: ns) (enter here n) :=
  ⟨[n], List.cons_prefix_cons.mpr ⟨rfl, List.nil_prefix⟩, rfl⟩

theorem Through.cons {here l : Location} {n : String} {ns : List String}
    (h : Through (enter here n) ns l) : Through here (n :: ns) l := by
  obtain ⟨ms, hms, hl⟩ := h
  exact ⟨n :: ms, List.cons_prefix_cons.mpr ⟨rfl, hms⟩, hl⟩

theorem Through.mono {here l : Location} {ns ms : List String} (h : Through here ns l)
    (hsub : ns <+: ms) : Through here ms l := by
  obtain ⟨ks, hks, hl⟩ := h
  exact ⟨ks, hks.trans hsub, hl⟩

namespace FilePath

variable {p q : FilePath}

def location (p : FilePath) : Location := p.names.foldl enter []

/-- The path leads through `l` before its last name. -/
def Passes (p : FilePath) (l : Location) : Prop := Through [] p.names.dropLast l

example : (FilePath.mk "out/tmp/../a.h").location = ["a.h", "out"] := by decide +kernel

/-! ### Pieces -/

theorem isPrefix_withoutIdleEnd (ps : List (List Char)) : withoutIdleEnd ps <+: ps :=
  List.rdropWhile_prefix isIdle ps

theorem slash_not_mem_of_mem_pieces {s : List Char} (h : s ∈ p.pieces) : '/' ∉ s :=
  Text.not_mem_of_mem_split h

/-- The names among pieces. -/
def namesOf (ps : List (List Char)) : List String := (ps.filter (!·.isEmpty)).map String.ofList

theorem names_eq (p : FilePath) : p.names = namesOf p.pieces := rfl

theorem namesOf_cons (s : List Char) (ps : List (List Char)) :
    namesOf (s :: ps) = namesOf [s] ++ namesOf ps := by
  rw [← List.singleton_append, namesOf, List.filter_append, List.map_append]; rfl

theorem names_ofPieces {ps : List (List Char)} (hps : ∀ s ∈ ps, '/' ∉ s) (hne : ps ≠ []) :
    (ofPieces ps).names = namesOf ps := by
  rw [names_eq, pieces, ofPieces, String.toList_ofList, Text.split_intercalate hps hne]

theorem isPrefix_namesOf {ps qs : List (List Char)} (h : ps <+: qs) : namesOf ps <+: namesOf qs :=
  (h.filter _).map _

/-- Up to idle pieces at the end, the last piece is a name. -/
theorem namesOf_withoutIdleEnd {ps : List (List Char)} (h : withoutIdleEnd ps ≠ []) :
    ∃ n, namesOf (withoutIdleEnd ps) = namesOf (withoutIdleEnd ps).dropLast ++ [n] := by
  have hlast : ¬isIdle ((withoutIdleEnd ps).getLast h) := List.rdropWhile_last_not isIdle ps h
  have hname : ((withoutIdleEnd ps).getLast h).isEmpty = false := by
    rw [isIdle, Bool.or_eq_true, not_or] at hlast
    exact Bool.eq_false_iff.mpr hlast.1
  refine ⟨String.ofList ((withoutIdleEnd ps).getLast h), ?_⟩
  conv => lhs; rw [← List.dropLast_append_getLast h]
  simp [namesOf, hname]

/-! ### Directories -/

theorem isPrefix_dropLast {α : Type} {l l' : List α} {x : α} (h : l ++ [x] <+: l') :
    l <+: l'.dropLast := by
  obtain ⟨more, rfl⟩ := h
  rw [List.append_assoc, List.dropLast_append_of_ne_nil (by simp)]
  exact List.prefix_append _ _

theorem isPrefix_namesOf_dropLast {first : List Char} {more : List (List Char)}
    (h : withoutIdleEnd more ≠ []) :
    namesOf (first :: withoutIdleEnd (withoutIdleEnd more).dropLast) <+:
      (namesOf (first :: more)).dropLast := by
  obtain ⟨n, hn⟩ := namesOf_withoutIdleEnd h
  have hrest : namesOf (first :: withoutIdleEnd (withoutIdleEnd more).dropLast) <+:
      namesOf (first :: (withoutIdleEnd more).dropLast) :=
    isPrefix_namesOf (List.cons_prefix_cons.mpr ⟨rfl, isPrefix_withoutIdleEnd _⟩)
  have hmore : namesOf (first :: withoutIdleEnd more) <+: namesOf (first :: more) :=
    isPrefix_namesOf (List.cons_prefix_cons.mpr ⟨rfl, isPrefix_withoutIdleEnd _⟩)
  have hsplit : namesOf (first :: withoutIdleEnd more) =
      namesOf (first :: (withoutIdleEnd more).dropLast) ++ [n] := by
    rw [namesOf_cons, hn, ← List.append_assoc, ← namesOf_cons]
  exact hrest.trans (isPrefix_dropLast (hsplit ▸ hmore))

/-- The names of the parent stand before the last name. -/
theorem names_parent? (h : p.parent? = some q) : q.names <+: p.names.dropLast := by
  have hslash : ∀ s ∈ p.pieces, '/' ∉ s := fun s hs => slash_not_mem_of_mem_pieces hs
  rw [parent?] at h
  rw [names_eq p]
  split at h
  · cases h
  · next first more hp =>
    rw [hp] at hslash ⊢
    split at h
    · split at h
      · cases h
      · cases h; exact List.nil_prefix
    · next hm =>
      simp only [Option.some.injEq] at h
      subst h
      split
      · exact List.nil_prefix
      · rw [names_ofPieces _ (List.cons_ne_nil _ _)]
        · exact isPrefix_namesOf_dropLast hm
        · intro s hs
          refine hslash s ?_
          rcases List.mem_cons.mp hs with rfl | hs
          · exact List.mem_cons_self
          · have hdrop := (isPrefix_withoutIdleEnd _).subset hs
            have hmem := (List.dropLast_prefix _).subset hdrop
            exact List.mem_cons_of_mem _ ((isPrefix_withoutIdleEnd _).subset hmem)

/-- The path `.` leads nowhere else. -/
theorem eq_of_through_dot {here l : Location} (h : Through here (FilePath.mk ".").names l) : l = here := by
  have hnames : (FilePath.mk ".").names = ["."] := by decide +kernel
  obtain ⟨ns, hns, rfl⟩ := h
  rw [hnames] at hns
  cases ns with
  | nil => rfl
  | cons n ns =>
    obtain ⟨rfl, hrest⟩ := List.cons_prefix_cons.mp hns
    rw [List.prefix_nil.mp hrest]
    rfl

/-- What the directory of a path leads through, the path passes. -/
theorem passes_of_through_directory {l : Location} (h : Through [] p.directory.names l) :
    p.Passes l := by
  rw [directory] at h
  split at h
  · next q hq =>
    split at h
    · rw [eq_of_through_dot h]
      exact through_here [] _
    · exact h.mono (names_parent? hq)
  · rw [eq_of_through_dot h]
    exact through_here [] _

end FilePath

end OpHeaders.Files
