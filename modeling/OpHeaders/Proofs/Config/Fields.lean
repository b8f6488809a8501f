import Mathlib.Data.List.Nodup
import OpHeaders.Config.Reading
import OpHeaders.Proofs.Yaml.Jumps

/-! What the nodes of a document say in a configuration: texts, truth values, lists, and records, which
are mappings whose keys are texts and all differ. The readers find just that, and follow as many aliases
as stand in what they look at: those at the keys of a record and in the values under known names. -/
namespace OpHeaders

open Yaml (Document Node Expansion Reads standardTag bool?)
open Config (isBlankNode)
open Files (FilePath)

/-! ### Nodes -/

namespace Yaml

def Node.text? : Node → Option String
  | .scalar _ _ text => some text
  | _ => none

/-- A truth value is written plainly, or as a literal block under its tag. -/
def Node.flag? : Node → Option Bool
  | .scalar tag style text =>
    if style = .plain ∨ style = .literal ∧ tag = some (standardTag "bool") then bool? text else none
  | _ => none

/-- The items of a list, which may be left blank. -/
def Node.items? : Node → Option (List Node)
  | .sequence _ items => some items
  | n => if isBlankNode n then some [] else none

/-- The entries of a mapping, which may be left blank. -/
def Node.entries? : Node → Option (List (Node × Node))
  | .mapping _ entries => some entries
  | n => if isBlankNode n then some [] else none

namespace Document

variable (d : Document) (n : Node)

def text? : Option String := (d.meant? n).bind Node.text?

def flag? : Option Bool := (d.meant? n).bind Node.flag?

def items? : Option (List Node) := (d.meant? n).bind Node.items?

def entries? : Option (List (Node × Node)) := (d.meant? n).bind Node.entries?

/-- The entries that have texts for keys, under these texts. -/
def keyed (es : List (Node × Node)) : List (String × Node) :=
  es.filterMap fun e => (d.text? e.1).map (·, e.2)

def fields : List (String × Node) := d.keyed ((d.entries? n).getD [])

/-- A mapping whose keys are texts, none of them twice. -/
def IsRecord : Prop :=
  ∃ es, d.entries? n = some es ∧ (∀ e ∈ es, (d.text? e.1).isSome) ∧ ((d.keyed es).map Prod.fst).Nodup

/-- The aliases that are followed to read a list, by those of its items. -/
def listJumps (cost : Node → Nat) : Nat := n.jumps + (((d.items? n).getD []).map cost).sum

/-- The aliases that are followed to read the keys of a record. -/
def keyJumps : Nat := n.jumps + (((d.entries? n).getD []).map fun e => e.1.jumps).sum

/-- The aliases that are followed to read the value under a name, if there is one. -/
def valueJumps (name : String) (cost : Node → Nat) : Nat := ((d.fields n).lookup name).elim 0 cost

end Document

end Yaml

namespace Config

variable {α β : Type} {d : Document} {n m : Node} {limit : Nat}

theorem reads_getM (b? : Option β) : Reads limit (b?.getM : Expansion β) 0 (b? = some ·) := by
  cases b? with
  | none => exact (Reads.failure 0).congr rfl (by simp)
  | some b => exact (Reads.pure b).congr rfl (by simp [eq_comm])

theorem reads_follow_getM (d : Document) (n : Node) (part? : Node → Option β) :
    Reads d.maxJumps (d.follow n >>= fun m => (part? m).getM) n.jumps ((d.meant? n).bind part? = some ·) := by
  refine ((d.reads_follow n).bind fun m _ => reads_getM (part? m)).congr (Nat.add_zero _) fun b => ?_
  rw [Option.bind_eq_some_iff]

theorem reads_readText (d : Document) (n : Node) :
    Reads d.maxJumps (readText d n) n.jumps (d.text? n = some ·) := by
  have heq : readText d n = d.follow n >>= fun m => m.text?.getM := by
    unfold readText
    congr 1
    funext m
    cases m <;> rfl
  rw [heq]
  exact reads_follow_getM d n Node.text?

theorem reads_readPath (d : Document) (n : Node) :
    Reads d.maxJumps (readPath d n) n.jumps (d.text? n = some ·.text) := by
  refine ((reads_readText d n).bind fun text _ => Reads.pure (⟨text⟩ : FilePath)).congr (Nat.add_zero _)
    fun path => ?_
  constructor
  · rintro ⟨text, htext, rfl⟩
    exact htext
  · intro htext
    exact ⟨path.text, htext, rfl⟩

theorem reads_readBool (d : Document) (n : Node) :
    Reads d.maxJumps (readBool d n) n.jumps (d.flag? n = some ·) := by
  have heq : readBool d n = d.follow n >>= fun m => m.flag?.getM := by
    unfold readBool
    congr 1
    funext m
    cases m with
    | scalar tag style text =>
      simp only [Node.flag?, Bool.or_eq_true, Bool.and_eq_true, decide_eq_true_eq]
      split_ifs
      · cases bool? text <;> rfl
      · rfl
    | _ => rfl
  rw [heq]
  exact reads_follow_getM d n Node.flag?

theorem reads_readList {item : Node → Expansion α} {cost : Node → Nat} {P : Node → α → Prop}
    (h : ∀ items, d.items? n = some items → ∀ m ∈ items, Reads d.maxJumps (item m) (cost m) (P m)) :
    Reads d.maxJumps (readList item d n) (d.listJumps n cost)
      fun as => ∃ items, d.items? n = some items ∧ List.Forall₂ P items as := by
  have heq : readList item d n = (d.follow n >>= fun m => m.items?.getM) >>= (·.mapM item) := by
    unfold readList
    rw [bind_assoc]
    congr 1
    funext m
    cases m with
    | scalar tag style text =>
      dsimp only [Node.items?]
      split_ifs <;> rfl
    | _ => rfl
  rw [heq]
  refine (reads_follow_getM d n Node.items?).bind fun items hitems => ?_
  rw [show (d.items? n).getD [] = items from congrArg (·.getD []) hitems]
  exact Reads.mapM (h items hitems)

/-! ### Records -/

variable {known : List String} {fields : List (String × Node)} {name key : String}

/-- Where no name stands twice, what stands under a name is what is found there. -/
theorem lookup_eq_some_iff_mem {l : List (String × Node)} (h : (l.map Prod.fst).Nodup) :
    l.lookup name = some n ↔ (name, n) ∈ l := by
  induction l with
  | nil => simp
  | cons e l ih =>
    obtain ⟨key, m⟩ := e
    rw [List.map_cons, List.nodup_cons] at h
    rw [List.lookup_cons, List.mem_cons, Prod.mk.injEq]
    by_cases hname : name = key
    · subst hname
      have hmem : (name, n) ∉ l := fun hmem => h.1 (List.mem_map.mpr ⟨_, hmem, rfl⟩)
      simp [hmem, eq_comm]
    · rw [beq_eq_false_iff_ne.mpr hname]
      simp [hname, ih h.2]

/-- One more entry among the fields that are found already. -/
def addField (known : List String) (d : Document) (fields : List (String × Node)) (e : Node × Node) :
    Expansion (List (String × Node)) := do
  let key ← readText d e.1
  if !known.contains key then pure fields
  else if (fields.lookup key).isSome then failure
  else pure ((key, e.2) :: fields)

theorem reads_addField {e : Node × Node} (hkey : d.text? e.1 = some key) (hfields : fields.lookup key = none) :
    Reads d.maxJumps (addField known d fields e) e.1.jumps
      (· = if known.contains key then (key, e.2) :: fields else fields) := by
  have hadd : ∀ key', d.text? e.1 = some key' → Reads d.maxJumps
      (if !known.contains key' then pure fields
        else if (fields.lookup key').isSome then failure else pure ((key', e.2) :: fields)) 0
      (· = if known.contains key then (key, e.2) :: fields else fields) := by
    intro key' hkey'
    obtain rfl : key = key' := Option.some.inj (hkey.symm.trans hkey')
    rw [hfields]
    cases known.contains key with
    | true => exact Reads.pure _
    | false => exact Reads.pure _
  refine ((reads_readText d e.1).bind hadd).congr (Nat.add_zero _) fun fields' => ?_
  exact exists_and_right.trans (and_iff_right ⟨key, hkey⟩)

theorem reads_foldlM_addField {es : List (Node × Node)} (htext : ∀ e ∈ es, (d.text? e.1).isSome)
    (hnodup : ((d.keyed es ++ fields).map Prod.fst).Nodup) :
    Reads d.maxJumps (es.foldlM (addField known d) fields) (es.map fun e => e.1.jumps).sum
      (· = ((d.keyed es).filter (known.contains ·.1)).reverse ++ fields) := by
  induction es generalizing fields with
  | nil => exact Reads.pure fields
  | cons e es ih =>
    rw [List.forall_mem_cons] at htext
    obtain ⟨key, hkey⟩ := Option.isSome_iff_exists.mp htext.1
    have hkeyed : d.keyed (e :: es) = (key, e.2) :: d.keyed es := by
      rw [Document.keyed, List.filterMap_cons, hkey]
      rfl
    rw [hkeyed, List.cons_append, List.map_cons, List.nodup_cons] at hnodup
    rw [hkeyed, List.foldlM_cons, List.map_cons, List.sum_cons]
    have hfields : fields.lookup key = none := by
      rw [List.lookup_eq_none_iff]
      intro f hf
      rw [bne_iff_ne]
      rintro rfl
      exact hnodup.1 (List.mem_map.mpr ⟨f, List.mem_append_right _ hf, rfl⟩)
    refine ((reads_addField hkey hfields).bind fun fields' hfields' => ih htext.2 ?_).congr rfl
      fun fs => ?_
    · subst hfields'
      split_ifs
      · rw [List.map_append, List.map_cons, List.nodup_middle, ← List.map_append, List.nodup_cons]
        exact hnodup
      · exact hnodup.2
    · simp only [exists_eq_left, List.filter_cons]
      split_ifs
      · rw [List.reverse_cons, List.append_assoc, List.singleton_append]
      · rfl

/-- What is found of a record, the last field first. -/
def knownFields (known : List String) (d : Document) (n : Node) : List (String × Node) :=
  ((d.fields n).filter (known.contains ·.1)).reverse

theorem reads_readFields (h : d.IsRecord n) :
    Reads d.maxJumps (readFields known d n) (d.keyJumps n) (· = knownFields known d n) := by
  have heq : readFields known d n =
      (d.follow n >>= fun m => m.entries?.getM) >>= (·.foldlM (addField known d) []) := by
    unfold readFields
    rw [bind_assoc]
    congr 1
    funext m
    cases m with
    | scalar tag style text =>
      dsimp only [Node.entries?]
      split_ifs <;> rfl
    | _ => rfl
  obtain ⟨es, hes, htext, hnodup⟩ := h
  have hread : ∀ es', (d.meant? n).bind Node.entries? = some es' → Reads d.maxJumps
      (es'.foldlM (addField known d) []) (((d.entries? n).getD []).map fun e => e.1.jumps).sum
      (· = knownFields known d n) := by
    intro es' hes'
    obtain rfl : es = es' := Option.some.inj (hes.symm.trans hes')
    rw [knownFields, Document.fields, hes, Option.getD_some]
    exact (reads_foldlM_addField htext (by rwa [List.append_nil])).congr rfl fun _ => by rw [List.append_nil]
  rw [heq]
  refine ((reads_follow_getM d n Node.entries?).bind hread).congr rfl fun fields => ?_
  exact exists_and_right.trans (and_iff_right ⟨es, hes⟩)

theorem lookup_fields (h : d.IsRecord n) : (d.fields n).lookup name = some m ↔ (name, m) ∈ d.fields n := by
  obtain ⟨es, hes, -, hnodup⟩ := h
  exact lookup_eq_some_iff_mem (by rwa [Document.fields, hes])

/-- What is found under a known name is what the record has there. -/
theorem lookup_knownFields (h : d.IsRecord n) (hname : name ∈ known) :
    (knownFields known d n).lookup name = (d.fields n).lookup name := by
  have hnodup : ((knownFields known d n).map Prod.fst).Nodup := by
    obtain ⟨es, hes, -, hnodup⟩ := h
    rw [knownFields, List.map_reverse, Document.fields, hes]
    exact List.nodup_reverse.mpr (hnodup.sublist (List.filter_sublist.map Prod.fst))
  apply Option.ext
  intro m
  rw [lookup_fields h, lookup_eq_some_iff_mem hnodup, knownFields, List.mem_reverse, List.mem_filter]
  exact and_iff_left (List.contains_iff_mem.mpr hname)

end Config

end OpHeaders
