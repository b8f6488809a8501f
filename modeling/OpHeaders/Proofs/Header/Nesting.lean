import Mathlib.Tactic.SplitIfs
import OpHeaders.Header.Registration
import OpHeaders.Proofs.Text.Nesting

/-! The brackets of a registration block. Its directives put names, types and defaults between
brackets of their own, so the block is well-nested if these texts are; the default of a tensor
attribute is not put anywhere. -/
namespace OpHeaders.Schema

open Text (IsNested)

structure Tensor.IsWellNested (t : Tensor) : Prop where
  name : IsNested t.name.toList
  types : IsNested t.types.toList

def Subgraph.IsWellNested (g : Subgraph) : Prop := IsNested g.name.toList

/-- Types with a literal form of their own have tags without brackets. -/
structure Attribute.IsWellNested (a : Attribute) : Prop where
  name : IsNested a.name.toList
  type : ∀ tag, a.type = .other tag → IsNested tag.toList
  default : a.type ≠ .tensor → ∀ d ∈ a.default?, IsNested d.toList

structure Operator.IsWellNested (op : Operator) : Prop where
  name : IsNested op.name.toList
  inputs : ∀ t ∈ op.inputs, t.IsWellNested
  outputs : ∀ t ∈ op.outputs, t.IsWellNested
  graphs : ∀ g ∈ op.graphs, g.IsWellNested
  attrs : ∀ a ∈ op.attrs, a.IsWellNested

end OpHeaders.Schema

namespace OpHeaders.Header

open Schema
open Text (IsNested)

/-! ### Directives -/

theorem isNested_call {directive : String} {arguments : List Char} (hd : IsNested directive.toList)
    (ha : IsNested arguments) : IsNested (call directive arguments) := by
  have hparens : IsNested (directive.toList ++ ['('] ++ [')']) := by
    rw [List.append_assoc]
    exact hd.append (by decide)
  simpa [call] using hparens.insert ha

/-- The form of a tensor line is one of three, and none of them has a bracket. -/
theorem isNested_tensorLine {directive : String} (hd : IsNested directive.toList) {t : Tensor}
    (ht : t.IsWellNested) : IsNested (tensorLine directive t) := by
  have htypes : IsNested (", TensorType(\x7b ".toList ++ t.types.toList ++ " \x7d)".toList) :=
    IsNested.insert (by decide) ht.types
  refine isNested_call ?_ ?_
  · rw [String.toList_append]
    refine IsNested.append ?_ hd
    split_ifs <;> decide
  · rw [List.append_assoc, List.append_assoc]
    exact ht.name.append (by simpa using htypes)

theorem isNested_graphLine {g : Subgraph} (hg : g.IsWellNested) : IsNested (graphLine g) :=
  isNested_call (by split_ifs <;> decide) hg

/-! ### Attributes -/

theorem isNested_enclosed {left right : String} (h : IsNested (left.toList ++ right.toList)) {v : List Char}
    (hv : IsNested v) : IsNested (enclosed left v right) := by
  unfold enclosed
  split_ifs
  · exact h
  · have hspaced : IsNested (' ' :: v ++ [' ']) := IsNested.append (.plain rfl hv) (.plain rfl .nil)
    simpa using h.insert hspaced

theorem isNested_literal {type : AttrType} {v : List Char} (hv : type ≠ .tensor → IsNested v) :
    IsNested (literal type v) := by
  cases type with
  | tensor => exact (by decide : IsNested emptyTensor)
  | str => exact IsNested.insert (by decide) (hv (by decide))
  | list | listInt | listFloat => exact isNested_enclosed (by decide) (hv (by decide))
  | namedAttrs => exact isNested_enclosed (by decide) (hv (by decide))
  | int | float | bool => exact isNested_enclosed (by decide) (hv (by decide))
  | other tag => exact isNested_enclosed (by decide) (hv (by simp))

theorem isNested_tag {type : AttrType} (h : ∀ tag, type = .other tag → IsNested tag.toList) :
    IsNested type.tag.toList := by
  cases type with
  | other tag => exact h tag rfl
  | _ => decide

theorem isNested_attrLine {a : Attribute} (ha : a.IsWellNested) : IsNested (attrLine a) := by
  have hdefault : IsNested ((a.default?.map fun d => literal a.type d.toList).getD []) := by
    cases hd : a.default? with
    | none => exact .nil
    | some d => exact isNested_literal fun htype => ha.default htype d hd
  refine isNested_call (by split_ifs <;> decide) ?_
  exact ((ha.name.append (by decide)).append (isNested_tag ha.type)).append hdefault

/-! ### The block -/

/-- **Nesting.** The registration block of an operator is well-nested if its names, its types and the
defaults that are written down are. -/
theorem isNested_registration {op : Operator} (hop : op.IsWellNested) :
    IsNested (Text.unlines (registration op)) := by
  apply Text.isNested_unlines
  intro l hl
  simp only [registration, List.mem_cons, List.mem_append, List.mem_map, List.not_mem_nil, or_false] at hl
  rcases hl with rfl | (((⟨t, ht, rfl⟩ | ⟨t, ht, rfl⟩) | ⟨g, hg, rfl⟩) | ⟨a, ha, rfl⟩) | rfl
  · exact isNested_call (by decide) hop.name
  · exact isNested_tensorLine (by decide) (hop.inputs t ht)
  · exact isNested_tensorLine (by decide) (hop.outputs t ht)
  · exact isNested_graphLine (hop.graphs g hg)
  · exact isNested_attrLine (hop.attrs a ha)
  · decide

/-- Brackets in every text, and a default that is not written down. -/
def bracketed : Operator where
  name := "F(x)"
  inputs := [{ name := "a\x7b\x7d", types := "T(A, \x7bB\x7d)", isOptional := true }]
  outputs := [{ name := "(b)", types := "", isDynamic := true }]
  graphs := [{ name := "g()" }]
  attrs := [
    { name := "v", type := .tensor, default? := some ")(\x7b" },
    { name := "w", type := .other "LIST(\x7b\x7d)", default? := some "\x7b1, (2)\x7d", isRequired := true },
    { name := "(s)", type := .str, default? := some "" }]

theorem isNested_registration_bracketed :
    bracketed.IsWellNested ∧ IsNested (Text.unlines (registration bracketed)) := by
  have hwell : bracketed.IsWellNested := by
    refine ⟨by decide, ?_, ?_, ?_, ?_⟩
    · exact List.forall_mem_singleton.mpr ⟨by decide, by decide⟩
    · exact List.forall_mem_singleton.mpr ⟨by decide, by decide⟩
    · exact List.forall_mem_singleton.mpr (by decide : IsNested "g()".toList)
    · simp only [bracketed, List.forall_mem_cons]
      refine ⟨⟨by decide, ?_, ?_⟩, ⟨by decide, ?_, ?_⟩, ⟨by decide, ?_, ?_⟩, by simp⟩
      · rintro tag ⟨⟩
      · exact fun htype => absurd rfl htype
      · rintro tag ⟨⟩
        decide
      · rintro - d ⟨⟩
        decide
      · rintro tag ⟨⟩
      · rintro - d ⟨⟩
        decide
  exact ⟨hwell, isNested_registration hwell⟩

end OpHeaders.Header
