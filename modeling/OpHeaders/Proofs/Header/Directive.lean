import OpHeaders.Header.Registration
import OpHeaders.Proofs.Schema.AttrType

/-! What the directives of a registration block say. A directive names the kind of the
entry, then come its name and its arguments; from the line of an entry all of the entry can
be read back but for its description, the default of a tensor attribute, and whether an
optional tensor is also dynamic. -/
namespace OpHeaders.Schema

open Text (IsWord)

/-! ### What is registered -/

/-- Of the two flags the optional one wins. -/
def Tensor.registered (t : Tensor) : Tensor :=
  { t with isDynamic := !t.isOptional && t.isDynamic, description := "" }

def Subgraph.registered (g : Subgraph) : Subgraph := { g with description := "" }

/-- Of the default of a tensor it only counts that there is one. -/
def Attribute.registered (a : Attribute) : Attribute :=
  { a with
    default? := if a.type = .tensor then a.default?.map fun _ => "" else a.default?
    description := "" }

/-- An operator without its documentation. -/
def Operator.registered (op : Operator) : Operator where
  name := op.name
  inputs := op.inputs.map Tensor.registered
  outputs := op.outputs.map Tensor.registered
  graphs := op.graphs.map Subgraph.registered
  attrs := op.attrs.map Attribute.registered

/-! ### What can be read back

Names are words and other texts stand on one line; a default may be any such text. -/

structure Tensor.IsLegible (t : Tensor) : Prop where
  name : IsWord t.name
  types : '\n' ∉ t.types.toList

def Subgraph.IsLegible (g : Subgraph) : Prop := IsWord g.name

structure Attribute.IsLegible (a : Attribute) : Prop where
  name : IsWord a.name
  type : ∃ w, IsWord w ∧ a.type = .parse w
  default : ∀ d ∈ a.default?, '\n' ∉ d.toList

structure Operator.IsLegible (op : Operator) : Prop where
  name : IsWord op.name
  addedIn : ∀ v ∈ op.addedIn, '\n' ∉ v.toList
  inputs : ∀ t ∈ op.inputs, t.IsLegible
  outputs : ∀ t ∈ op.outputs, t.IsLegible
  graphs : ∀ g ∈ op.graphs, g.IsLegible
  attrs : ∀ a ∈ op.attrs, a.IsLegible

end OpHeaders.Schema

namespace OpHeaders.Header

open Schema
open Text (IsWord isWordChar)

/-! ### Directives -/

/-- What stands in front of the first parenthesis of a line. -/
def directiveOf (l : List Char) : List Char := l.takeWhile (· ≠ '(')

theorem call_eq (directive : String) (arguments : List Char) :
    call directive arguments = directive.toList ++ '(' :: (arguments ++ [')']) := by
  simp [call]

theorem directiveOf_call {directive : String} (h : '(' ∉ directive.toList) (arguments : List Char) :
    directiveOf (call directive arguments) = directive.toList := by
  have hne : ∀ c ∈ directive.toList, decide (c ≠ '(') = true := fun c hc => by
    simpa using ne_of_mem_of_not_mem hc h
  rw [directiveOf, call_eq, List.takeWhile_append_of_pos hne]
  simp

theorem call_inj {d e : String} (hd : '(' ∉ d.toList) (he : '(' ∉ e.toList) {xs ys : List Char}
    (h : call d xs = call e ys) : d = e ∧ xs = ys := by
  have hde : d.toList = e.toList := by rw [← directiveOf_call hd xs, ← directiveOf_call he ys, h]
  rw [call_eq, call_eq, hde] at h
  have hargs : xs ++ [')'] = ys ++ [')'] := (List.cons.inj (List.append_cancel_left h)).2
  exact ⟨String.toList_inj.1 hde, List.append_cancel_right hargs⟩

/-- What the directive of a tensor starts with. -/
def formOf (t : Tensor) : String :=
  if t.isOptional then ".OPTIONAL_" else if t.isDynamic then ".DYNAMIC_" else "."

theorem tensorLine_eq (directive : String) (t : Tensor) :
    tensorLine directive t = call (formOf t ++ directive)
      (t.name.toList ++ (", TensorType(\x7b ".toList ++ t.types.toList ++ " \x7d)".toList)) := by
  simp only [tensorLine, formOf, List.append_assoc]

theorem formOf_inj {s t : Tensor} (h : formOf s = formOf t) :
    s.isOptional = t.isOptional ∧ s.registered.isDynamic = t.registered.isDynamic := by
  unfold formOf at h
  unfold Tensor.registered
  cases hs : s.isOptional <;> cases ht : t.isOptional <;> cases hs' : s.isDynamic <;>
    cases ht' : t.isDynamic <;> simp_all

theorem paren_not_mem_formOf (t : Tensor) {directive : String} (h : '(' ∉ directive.toList) :
    '(' ∉ (formOf t ++ directive).toList := by
  rw [String.toList_append, List.mem_append, not_or]
  refine ⟨?_, h⟩
  unfold formOf
  split_ifs <;> decide

theorem tensorLine_inj {directive : String} (hd : '(' ∉ directive.toList) {s t : Tensor}
    (hs : s.IsLegible) (ht : t.IsLegible) (h : tensorLine directive s = tensorLine directive t) :
    s.registered = t.registered := by
  rw [tensorLine_eq, tensorLine_eq] at h
  obtain ⟨hform, hargs⟩ := call_inj (paren_not_mem_formOf s hd) (paren_not_mem_formOf t hd) h
  obtain ⟨hname, hrest⟩ := hs.name.append_inj ht.name (by simp; decide) (by simp; decide) hargs
  have htypes : s.types.toList = t.types.toList :=
    List.append_cancel_left (List.append_cancel_right hrest)
  have hform : formOf s = formOf t := by
    rw [← String.toList_inj, String.toList_append, String.toList_append] at hform
    exact String.toList_inj.1 (List.append_cancel_right hform)
  obtain ⟨hopt, hdyn⟩ := formOf_inj hform
  simp only [Tensor.registered, Tensor.mk.injEq] at hdyn ⊢
  exact ⟨hname, String.toList_inj.1 htypes, hopt, hdyn, trivial⟩

theorem graphLine_inj {g h : Subgraph} (hl : graphLine g = graphLine h) : g.registered = h.registered := by
  have hdirective : ∀ b : Bool, '(' ∉ (if b then ".DYNAMIC_GRAPH" else ".REQUIRED_GRAPH").toList := by
    decide
  obtain ⟨hform, hname⟩ := call_inj (hdirective _) (hdirective _) hl
  have hdyn : g.isDynamic = h.isDynamic := by
    cases hg : g.isDynamic <;> cases hh : h.isDynamic <;> simp_all
  simp only [Subgraph.registered, Subgraph.mk.injEq]
  exact ⟨String.toList_inj.1 hname, hdyn, trivial⟩

/-! ### Literals of defaults -/

/-- The empty text is told apart by the spaces that it does not have. -/
theorem enclosed_inj {left right : String} {v w : List Char}
    (h : enclosed left v right = enclosed left w right) : v = w := by
  unfold enclosed at h
  cases v with
  | nil =>
    cases w with
    | nil => rfl
    | cons d w =>
      have hlen := congrArg List.length h
      simp at hlen
      omega
  | cons c v =>
    cases w with
    | nil =>
      have hlen := congrArg List.length h
      simp at hlen
      omega
    | cons d w => simpa using h

theorem literal_inj {type : AttrType} (ht : type ≠ .tensor) {v w : List Char}
    (h : literal type v = literal type w) : v = w := by
  cases type with
  | str => exact List.append_cancel_left (List.append_cancel_right h)
  | tensor => exact absurd rfl ht
  | _ => exact enclosed_inj h

/-- A literal starts with a space or with a parenthesis, so it does not go on with the tag. -/
theorem head?_literal (type : AttrType) (v : List Char) :
    (literal type v).head? = some ' ' ∨ (literal type v).head? = some '(' := by
  cases type with
  | str => exact .inl rfl
  | tensor => exact .inr rfl
  | namedAttrs => cases v <;> exact .inr rfl
  | _ => cases v <;> exact .inl rfl

/-- What follows the tag of an attribute. -/
def literalOf (a : Attribute) : List Char := (a.default?.map fun d => literal a.type d.toList).getD []

theorem head?_literalOf (a : Attribute) : ∀ c ∈ (literalOf a).head?, isWordChar c = false := by
  unfold literalOf
  cases a.default? with
  | none => simp
  | some d =>
    intro c hc
    rcases head?_literal a.type d.toList with h | h
    · obtain rfl : ' ' = c := Option.mem_some_iff.1 (h ▸ hc)
      decide
    · obtain rfl : '(' = c := Option.mem_some_iff.1 (h ▸ hc)
      decide

theorem literalOf_inj {a b : Attribute} (ht : a.type = b.type) (h : literalOf a = literalOf b) :
    a.registered.default? = b.registered.default? := by
  have hne : ∀ d, literal b.type d ≠ [] := fun d hnil => by
    have := head?_literal b.type d
    simp [hnil] at this
  unfold literalOf at h
  simp only [Attribute.registered, ht] at h ⊢
  cases ha : a.default? with
  | none =>
    cases hb : b.default? with
    | none => rfl
    | some e => exact absurd (by simpa [ha, hb] using h.symm) (hne e.toList)
  | some d =>
    cases hb : b.default? with
    | none => exact absurd (by simpa [ha, hb] using h) (hne d.toList)
    | some e =>
      by_cases htensor : b.type = .tensor
      · simp [htensor]
      · have hde : d.toList = e.toList := literal_inj htensor (by simpa [ha, hb] using h)
        rw [String.toList_inj.1 hde]

theorem attrLine_eq (a : Attribute) :
    attrLine a = call (if a.isRequired then ".REQUIRED_ATTR" else ".ATTR")
      (a.name.toList ++ (", AttrValue::".toList ++ (a.type.tag.toList ++ literalOf a))) := by
  simp only [attrLine, literalOf, List.append_assoc]

theorem attrLine_inj {a b : Attribute} (ha : a.IsLegible) (hb : b.IsLegible)
    (h : attrLine a = attrLine b) : a.registered = b.registered := by
  have hdirective : ∀ b : Bool, '(' ∉ (if b then ".REQUIRED_ATTR" else ".ATTR").toList := by decide
  rw [attrLine_eq, attrLine_eq] at h
  obtain ⟨hform, hargs⟩ := call_inj (hdirective _) (hdirective _) h
  have hrequired : a.isRequired = b.isRequired := by
    cases hra : a.isRequired <;> cases hrb : b.isRequired <;> simp_all
  obtain ⟨hname, hrest⟩ := ha.name.append_inj hb.name (by simp; decide) (by simp; decide) hargs
  obtain ⟨u, hu, hau⟩ := ha.type
  obtain ⟨w, hw, hbw⟩ := hb.type
  have htag := List.append_cancel_left hrest
  rw [hau, hbw] at htag
  obtain ⟨htag, hliteral⟩ := (AttrType.isWord_tag_parse hu).append_inj (AttrType.isWord_tag_parse hw)
    (head?_literalOf a) (head?_literalOf b) htag
  have htype : a.type = b.type := by rw [hau, hbw, AttrType.parse_inj_of_tag htag]
  have hdefault := literalOf_inj htype hliteral
  simp only [Attribute.registered, Attribute.mk.injEq] at hdefault ⊢
  exact ⟨hname, htype, hrequired, hdefault, trivial⟩

end OpHeaders.Header
