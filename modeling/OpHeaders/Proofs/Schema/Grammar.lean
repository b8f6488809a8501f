import Mathlib.Logic.Basic
import OpHeaders.Proofs.Yaml.Lookup
import OpHeaders.Schema.Loading

/-! The grammar of operator schemas and the catalog that a schema denotes. The grammar
says which values are schemas without reading them. What is denoted by a value that is
no schema does not matter. -/
namespace OpHeaders.Schema

open Yaml (Value)

variable {es : Entries} {name : String} {v : Value}

/-! ### Values -/

/-- A mapping with the entries `es`, under any number of tags. -/
inductive IsMapping : Value → Entries → Prop where
  | bare (es : Entries) : IsMapping (.mapping es) es
  | tagged (tag : String) {v : Value} {es : Entries} :
    IsMapping v es → IsMapping (.tagged tag v) es

/-- An untagged string or truth value. -/
inductive IsText : Value → Prop where
  | string (s : String) : IsText (.string s)
  | bool (b : Bool) : IsText (.bool b)

/-- An untagged truth value. -/
inductive IsFlag : Value → Prop where
  | bool (b : Bool) : IsFlag (.bool b)

def textOf : Value → String
  | .string s => s
  | .bool true => "true"
  | .bool false => "false"
  | _ => ""

def flagOf : Value → Bool
  | .bool b => b
  | _ => false

def fieldsOf (v : Value) : Entries := v.entries?.getD []

theorem IsMapping.entries?_eq (h : IsMapping v es) : v.entries? = some es := by
  induction h with
  | bare es => rfl
  | tagged tag _ ih => exact ih

theorem isMapping_of_entries? : ∀ v : Value, v.entries? = some es → IsMapping v es
  | .mapping _, h => by cases h; exact .bare es
  | .tagged tag v, h => .tagged tag (isMapping_of_entries? v h)
  | .null, h | .bool _, h | .number _, h | .string _, h | .sequence _, h => by cases h

theorem isMapping_iff (v : Value) (es : Entries) : IsMapping v es ↔ v.entries? = some es :=
  ⟨IsMapping.entries?_eq, isMapping_of_entries? v⟩

theorem IsMapping.fieldsOf_eq (h : IsMapping v es) : fieldsOf v = es := by
  rw [fieldsOf, h.entries?_eq]; rfl

/-! ### Fields -/

/-- The value `v` is the first under the untagged key `name`. -/
inductive HasField (name : String) (v : Value) : Entries → Prop where
  | here (es : Entries) : HasField name v ((.string name, v) :: es)
  | there {key w : Value} {es : Entries} :
    key ≠ .string name → HasField name v es → HasField name v ((key, w) :: es)

/-- The field is absent, null or as `P` says. -/
def Allows (P : Value → Prop) (es : Entries) (name : String) : Prop :=
  ∀ v, HasField name v es → v = .null ∨ P v

/-- The field is there and as `P` says. -/
def Requires (P : Value → Prop) (es : Entries) (name : String) : Prop :=
  ∃ v, HasField name v es ∧ P v

/-- The value of a field unless that is null. -/
def given? (es : Entries) (name : String) : Option Value :=
  match Value.field? name es with
  | some .null => none
  | v? => v?

def givenText? (es : Entries) (name : String) : Option String := (given? es name).map textOf

def givenFlag (es : Entries) (name : String) : Bool := (given? es name).elim false flagOf

def givenEntries (es : Entries) (name : String) : Entries := (given? es name).elim [] fieldsOf

/-- The comment without the blanks around it. -/
def remark (es : Entries) : String := Text.trimmed ((givenText? es "comment").getD "")

theorem hasField_iff (name : String) (v : Value) (es : Entries) :
    HasField name v es ↔ Value.field? name es = some v := by
  induction es with
  | nil =>
    constructor
    · intro h; cases h
    · intro h; cases h
  | cons e es ih =>
    obtain ⟨key, w⟩ := e
    by_cases hk : key = .string name
    · subst hk
      rw [Value.field?_cons_self, Option.some.injEq]
      constructor
      · intro h
        cases h with
        | here => rfl
        | there hne _ => exact absurd rfl hne
      · rintro rfl; exact .here es
    · rw [Value.field?_cons_of_ne hk, ← ih]
      constructor
      · intro h
        cases h with
        | here => exact absurd rfl hk
        | there _ h => exact h
      · exact .there hk

theorem given?_eq_some_iff (es : Entries) (name : String) (v : Value) :
    given? es name = some v ↔ HasField name v es ∧ v ≠ .null := by
  rw [hasField_iff, given?]
  split
  · next h =>
    simp only [h, reduceCtorEq, Option.some.injEq, false_iff, not_and, not_not]
    exact Eq.symm
  · next h =>
    constructor
    · intro hv
      refine ⟨hv, ?_⟩
      rintro rfl
      exact h hv
    · exact And.left

theorem given?_nil (name : String) : given? [] name = none := rfl

theorem allows_iff (P : Value → Prop) (es : Entries) (name : String) :
    Allows P es name ↔ ∀ v, given? es name = some v → P v := by
  simp only [Allows, given?_eq_some_iff, and_imp]
  refine forall₂_congr fun v _ => ?_
  rw [or_iff_not_imp_left]

/-- A field that may not be null is required as it is given. -/
theorem requires_iff {P : Value → Prop} (hP : ¬P .null) (es : Entries) (name : String) :
    Requires P es name ↔ ∃ v, given? es name = some v ∧ P v := by
  simp only [Requires, given?_eq_some_iff]
  refine exists_congr fun v => ?_
  constructor
  · rintro ⟨hv, h⟩
    refine ⟨⟨hv, ?_⟩, h⟩
    rintro rfl
    exact hP h
  · rintro ⟨⟨hv, -⟩, h⟩
    exact ⟨hv, h⟩

/-! ### The grammar -/

/-- An entry whose key is a text and whose value is a mapping with fields as `P` says. -/
structure IsEntry (P : Entries → Prop) (e : Value × Value) : Prop where
  key : IsText e.1
  value : ∃ es, IsMapping e.2 es ∧ P es

/-- An untagged mapping of such entries. -/
inductive IsListing (P : Entries → Prop) : Value → Prop where
  | mapping {es : Entries} : (∀ e ∈ es, IsEntry P e) → IsListing P (.mapping es)

structure TensorFields (es : Entries) : Prop where
  types : Requires IsText es "tensor_types"
  isOptional : Allows IsFlag es "optional"
  isDynamic : Allows IsFlag es "dynamic"
  comment : Allows IsText es "comment"

structure SubgraphFields (es : Entries) : Prop where
  isDynamic : Allows IsFlag es "dynamic"
  comment : Allows IsText es "comment"

structure AttributeFields (es : Entries) : Prop where
  type : Requires IsText es "type"
  isRequired : Allows IsFlag es "required"
  default? : Allows IsText es "default"
  comment : Allows IsText es "comment"

structure OperatorFields (es : Entries) : Prop where
  comment : Allows IsText es "comment"
  addedIn : Allows IsText es "add_version"
  examples : Allows IsText es "examples"
  inputs : Allows (IsListing TensorFields) es "inputs"
  outputs : Allows (IsListing TensorFields) es "outputs"
  graphs : Allows (IsListing SubgraphFields) es "graphs"
  attrs : Allows (IsListing AttributeFields) es "attrs"

/-- An operator has a text as its key. Its value is null or a mapping. -/
structure IsOperator (e : Value × Value) : Prop where
  key : IsText e.1
  value : e.2 = .null ∨ ∃ es, IsMapping e.2 es ∧ OperatorFields es

/-- A schema has a category as its first entry. The other entries may be anything. -/
inductive IsSchema : Value → Prop where
  | document {v key ops : Value} {rest es : Entries} :
    IsMapping v ((key, ops) :: rest) → IsText key → IsMapping ops es →
    (∀ e ∈ es, IsOperator e) → IsSchema v

/-! ### The catalog that a schema denotes -/

def Tensor.denoted (e : Value × Value) : Tensor where
  name := textOf e.1
  types := (givenText? (fieldsOf e.2) "tensor_types").getD ""
  isOptional := givenFlag (fieldsOf e.2) "optional"
  isDynamic := givenFlag (fieldsOf e.2) "dynamic"
  description := remark (fieldsOf e.2)

def Subgraph.denoted (e : Value × Value) : Subgraph where
  name := textOf e.1
  isDynamic := givenFlag (fieldsOf e.2) "dynamic"
  description := remark (fieldsOf e.2)

def Attribute.denoted (e : Value × Value) : Attribute where
  name := textOf e.1
  type := .parse ((givenText? (fieldsOf e.2) "type").getD "")
  isRequired := givenFlag (fieldsOf e.2) "required"
  default? := givenText? (fieldsOf e.2) "default"
  description := remark (fieldsOf e.2)

def Operator.withFields (name : String) (es : Entries) : Operator where
  name := name
  description := some (remark es) |>.filter (· ≠ "")
  addedIn := givenText? es "add_version"
  examples := givenText? es "examples"
  inputs := (givenEntries es "inputs").map Tensor.denoted
  outputs := (givenEntries es "outputs").map Tensor.denoted
  graphs := (givenEntries es "graphs").map Subgraph.denoted
  attrs := (givenEntries es "attrs").map Attribute.denoted

/-- A null value has no fields. -/
def Operator.denoted (e : Value × Value) : Operator := .withFields (textOf e.1) (fieldsOf e.2)

def Catalog.denoted (v : Value) : Catalog :=
  match fieldsOf v with
  | [] => ⟨"", []⟩
  | (key, ops) :: _ => ⟨textOf key, (fieldsOf ops).map Operator.denoted⟩

end OpHeaders.Schema
