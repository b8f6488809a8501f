import OpHeaders.Proofs.Header.Directive
import OpHeaders.Proofs.Text.Block

/-! Reading a registration block back. Its lines are sorted by their directives into the
four lists of the operator, and a sequence of blocks is cut where one begins, so blocks and
sequences of blocks determine what is registered. -/
namespace OpHeaders.Header

open Schema
open Text (IsBlock map_eq_map_of_imp map_eq_map_of_flatMap_eq)

/-! ### The four lists -/

/-- The lists of an operator. -/
inductive Section where
  | inputs
  | outputs
  | graphs
  | attrs
deriving DecidableEq

/-- The lines of one list. -/
def sectionLines (op : Operator) : Section → List (List Char)
  | .inputs => op.inputs.map (tensorLine "INPUT")
  | .outputs => op.outputs.map (tensorLine "OUTPUT")
  | .graphs => op.graphs.map graphLine
  | .attrs => op.attrs.map attrLine

theorem registration_eq (op : Operator) :
    registration op = call "REG_OP" op.name.toList :: (sectionLines op .inputs ++
      sectionLines op .outputs ++ sectionLines op .graphs ++ sectionLines op .attrs ++ [call ".OP_END" []]) :=
  rfl

/-- The list that a directive belongs to. -/
def sectionOf : String → Option Section
  | ".INPUT" | ".OPTIONAL_INPUT" | ".DYNAMIC_INPUT" => some .inputs
  | ".OUTPUT" | ".OPTIONAL_OUTPUT" | ".DYNAMIC_OUTPUT" => some .outputs
  | ".REQUIRED_GRAPH" | ".DYNAMIC_GRAPH" => some .graphs
  | ".ATTR" | ".REQUIRED_ATTR" => some .attrs
  | _ => none

/-- The list that a line belongs to. -/
def sectionAt (l : List Char) : Option Section := sectionOf (String.ofList (directiveOf l))

theorem sectionAt_call {directive : String} (h : '(' ∉ directive.toList) (arguments : List Char) :
    sectionAt (call directive arguments) = sectionOf directive := by
  rw [sectionAt, directiveOf_call h, String.ofList_toList]

theorem sectionAt_of_mem {op : Operator} {s : Section} {l : List Char} (h : l ∈ sectionLines op s) :
    sectionAt l = some s := by
  cases s with
  | inputs =>
    obtain ⟨t, -, rfl⟩ := List.mem_map.1 h
    rw [tensorLine_eq, sectionAt_call (paren_not_mem_formOf t (by decide))]
    unfold formOf
    split_ifs <;> rfl
  | outputs =>
    obtain ⟨t, -, rfl⟩ := List.mem_map.1 h
    rw [tensorLine_eq, sectionAt_call (paren_not_mem_formOf t (by decide))]
    unfold formOf
    split_ifs <;> rfl
  | graphs =>
    obtain ⟨g, -, rfl⟩ := List.mem_map.1 h
    unfold graphLine
    rw [sectionAt_call (by split_ifs <;> decide)]
    split_ifs <;> rfl
  | attrs =>
    obtain ⟨a, -, rfl⟩ := List.mem_map.1 h
    rw [attrLine_eq, sectionAt_call (by split_ifs <;> decide)]
    split_ifs <;> rfl

theorem filter_sectionLines (op : Operator) (s u : Section) :
    (sectionLines op u).filter (sectionAt · = some s) = if u = s then sectionLines op s else [] := by
  split_ifs with h
  · subst h
    exact List.filter_eq_self.2 fun l hl => by simpa using sectionAt_of_mem hl
  · exact List.filter_eq_nil_iff.2 fun l hl => by simpa [sectionAt_of_mem hl] using h

/-- The lines of a list are those of the block that belong to it. -/
theorem filter_tail_registration (op : Operator) (s : Section) :
    (registration op).tail.filter (sectionAt · = some s) = sectionLines op s := by
  have hend : sectionAt (call ".OP_END" []) = none := sectionAt_call (by decide) []
  rw [registration_eq, List.tail_cons]
  simp only [List.filter_append, filter_sectionLines]
  cases s <;> simp [hend]

/-- A block tells all that is registered. -/
theorem registration_inj {op rep : Operator} (hop : op.IsLegible) (hrep : rep.IsLegible)
    (h : registration op = registration rep) : op.registered = rep.registered := by
  have hname : op.name = rep.name := by
    rw [registration_eq, registration_eq] at h
    obtain ⟨-, hname⟩ := call_inj (by decide) (by decide) (List.cons.inj h).1
    exact String.toList_inj.1 hname
  have hlines : ∀ s, sectionLines op s = sectionLines rep s := fun s => by
    rw [← filter_tail_registration op, ← filter_tail_registration rep, h]
  have hinputs : op.inputs.map Tensor.registered = rep.inputs.map Tensor.registered :=
    map_eq_map_of_imp (fun s hs t ht => tensorLine_inj (by decide) (hop.inputs s hs) (hrep.inputs t ht))
      (hlines .inputs)
  have houtputs : op.outputs.map Tensor.registered = rep.outputs.map Tensor.registered :=
    map_eq_map_of_imp (fun s hs t ht => tensorLine_inj (by decide) (hop.outputs s hs) (hrep.outputs t ht))
      (hlines .outputs)
  have hgraphs : op.graphs.map Subgraph.registered = rep.graphs.map Subgraph.registered :=
    map_eq_map_of_imp (fun g _ k _ => graphLine_inj) (hlines .graphs)
  have hattrs : op.attrs.map Attribute.registered = rep.attrs.map Attribute.registered :=
    map_eq_map_of_imp (fun a ha b hb => attrLine_inj (hop.attrs a ha) (hrep.attrs b hb)) (hlines .attrs)
  simp only [Operator.registered, hname, hinputs, houtputs, hgraphs, hattrs]

/-! ### Sequences of blocks -/

/-- Whether a block begins with a line. -/
def isOpening (l : List Char) : Bool := l.head? = some 'R'

/-- Directives behind the first one start with a period, whatever their arguments are. -/
theorem head?_of_mem_tail_registration (op : Operator) {l : List Char}
    (h : l ∈ (registration op).tail) : l.head? = some '.' := by
  have htensor : ∀ directive t, (tensorLine directive t).head? = some '.' := fun directive t => by
    rw [tensorLine_eq, call_eq, String.toList_append]
    unfold formOf
    split_ifs <;> rfl
  have hgraph : ∀ g, (graphLine g).head? = some '.' := fun g => by
    unfold graphLine
    split_ifs <;> rfl
  have hattr : ∀ a, (attrLine a).head? = some '.' := fun a => by
    unfold attrLine
    split_ifs <;> rfl
  rw [registration_eq, List.tail_cons] at h
  simp only [sectionLines, List.mem_append, List.mem_map, List.mem_singleton] at h
  rcases h with (((⟨t, -, rfl⟩ | ⟨t, -, rfl⟩) | ⟨g, -, rfl⟩) | ⟨a, -, rfl⟩) | rfl
  · exact htensor "INPUT" t
  · exact htensor "OUTPUT" t
  · exact hgraph g
  · exact hattr a
  · rfl

theorem isBlock_registration (op : Operator) : IsBlock isOpening (registration op) := by
  refine ⟨_, _, registration_eq op, rfl, fun l hl => ?_⟩
  have hhead : l.head? = some '.' := head?_of_mem_tail_registration op (by rwa [registration_eq])
  simp [isOpening, hhead]

/-- A sequence of blocks tells all that is registered, operator by operator. -/
theorem flatMap_registration_inj {ops reps : List Operator} (hops : ∀ op ∈ ops, op.IsLegible)
    (hreps : ∀ op ∈ reps, op.IsLegible) (h : ops.flatMap registration = reps.flatMap registration) :
    ops.map Operator.registered = reps.map Operator.registered :=
  map_eq_map_of_imp (fun op hop rep hrep => registration_inj (hops op hop) (hreps rep hrep))
    (map_eq_map_of_flatMap_eq (fun op _ => isBlock_registration op) (fun op _ => isBlock_registration op) h)

/-! ### Lines -/

theorem newline_not_mem_call {directive : String} {arguments : List Char} (hd : '\n' ∉ directive.toList)
    (ha : '\n' ∉ arguments) : '\n' ∉ call directive arguments := by
  simp [call_eq, hd, ha]

theorem newline_not_mem_literal {type : AttrType} {v : List Char} (hv : '\n' ∉ v) :
    '\n' ∉ literal type v := by
  have henclosed : ∀ left right : String, '\n' ∉ left.toList → '\n' ∉ right.toList →
      '\n' ∉ enclosed left v right := fun left right hl hr => by
    unfold enclosed
    split_ifs <;> simp [hl, hr, hv]
  cases type with
  | str => simp [literal, hv]
  | tensor => exact (by decide : '\n' ∉ emptyTensor)
  | namedAttrs => exact henclosed _ _ (by decide) (by decide)
  | _ => exact henclosed _ _ (by decide) (by decide)

theorem newline_not_mem_literalOf {a : Attribute} (ha : a.IsLegible) : '\n' ∉ literalOf a := by
  unfold literalOf
  cases hd : a.default? with
  | none => exact List.not_mem_nil
  | some d => exact newline_not_mem_literal (ha.default d hd)

theorem newline_not_mem_registration {op : Operator} (hop : op.IsLegible) :
    ∀ l ∈ registration op, '\n' ∉ l := by
  have htensor : ∀ directive, '\n' ∉ directive.toList → ∀ t : Tensor, t.IsLegible →
      '\n' ∉ tensorLine directive t := fun directive hd t ht => by
    have hform : '\n' ∉ (formOf t).toList := by
      unfold formOf
      split_ifs <;> decide
    rw [tensorLine_eq]
    refine newline_not_mem_call (by simp [hform, hd]) ?_
    simp [ht.name.not_mem (c := '\n') (by decide), ht.types]
  intro l hl
  rw [registration_eq] at hl
  simp only [sectionLines, List.mem_cons, List.mem_append, List.mem_map, List.not_mem_nil,
    or_false] at hl
  rcases hl with rfl | (((⟨t, ht, rfl⟩ | ⟨t, ht, rfl⟩) | ⟨g, hg, rfl⟩) | ⟨a, ha, rfl⟩) | rfl
  · exact newline_not_mem_call (by decide) (hop.name.not_mem (by decide))
  · exact htensor "INPUT" (by decide) t (hop.inputs t ht)
  · exact htensor "OUTPUT" (by decide) t (hop.outputs t ht)
  · exact newline_not_mem_call (by split_ifs <;> decide) ((hop.graphs g hg).not_mem (by decide))
  · obtain ⟨w, hw, hty⟩ := (hop.attrs a ha).type
    have htag : '\n' ∉ a.type.tag.toList := hty ▸ (AttrType.isWord_tag_parse hw).not_mem (by decide)
    rw [attrLine_eq]
    refine newline_not_mem_call (by split_ifs <;> decide) ?_
    simp [(hop.attrs a ha).name.not_mem (c := '\n') (by decide), htag,
      newline_not_mem_literalOf (hop.attrs a ha)]
  · decide

end OpHeaders.Header
