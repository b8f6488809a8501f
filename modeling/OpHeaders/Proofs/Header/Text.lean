import OpHeaders.Header.Text
import OpHeaders.Proofs.Header.Documentation
import OpHeaders.Proofs.Header.Registration

/-! The text of a header determines what it registers. Documentation may look like
anything: each of its lines stands behind the marker, and no directive does. So the
registration blocks are the lines that start like one, and they are read back one by one. -/
namespace OpHeaders.Header

open Schema

/-- Whether a line belongs to a registration block. -/
def isRegistering (l : List Char) : Bool := l.head? = some 'R' || l.head? = some '.'

theorem isRegistering_of_mem_registration {op : Operator} {l : List Char} (h : l ∈ registration op) :
    isRegistering l = true := by
  rw [registration_eq] at h
  rcases List.mem_cons.1 h with rfl | h
  · rfl
  · have hhead := head?_of_mem_tail_registration op (by rwa [registration_eq])
    simp [isRegistering, hhead]

theorem isRegistering_of_mem_documentation {op : Operator} {l : List Char} (h : l ∈ documentation op) :
    isRegistering l = false := by
  unfold documentation at h
  rcases List.mem_append.1 h with h | h
  · rcases List.mem_cons.1 h with rfl | h
    · rfl
    · obtain ⟨s, rfl⟩ := isPrefix_marker (innerLine_of_mem h)
      rfl
  · obtain rfl := List.mem_singleton.1 h
    rfl

/-- What follows the banner. -/
def bodyLines (c : Catalog) : List (List Char) :=
  c.operators.flatMap (fun op => operatorLines op ++ [[]]) ++ closingLines

theorem filter_bodyLines (c : Catalog) :
    (bodyLines c).filter isRegistering = c.operators.flatMap registration := by
  have hop (op : Operator) : (operatorLines op ++ [[]]).filter isRegistering = registration op := by
    have hdoc : (documentation op).filter isRegistering = [] :=
      List.filter_eq_nil_iff.2 fun l hl => by simp [isRegistering_of_mem_documentation hl]
    have hreg : (registration op).filter isRegistering = registration op :=
      List.filter_eq_self.2 fun l hl => isRegistering_of_mem_registration hl
    rw [operatorLines, List.filter_append, List.filter_append, hdoc, hreg]
    simp [isRegistering]
  have hclosing : closingLines.filter isRegistering = [] := by decide
  simp only [bodyLines, List.filter_append, List.filter_flatMap, hop, hclosing, List.append_nil]

theorem newline_not_mem_fields {op : Operator} (hop : op.IsLegible) : ∀ f ∈ op.fields, '\n' ∉ f.1.toList := by
  intro f hf
  simp only [Operator.fields, List.mem_append, List.mem_map] at hf
  rcases hf with ((⟨t, ht, rfl⟩ | ⟨t, ht, rfl⟩) | ⟨g, hg, rfl⟩) | ⟨a, ha, rfl⟩
  · exact (hop.inputs t ht).name.not_mem (by decide)
  · exact (hop.outputs t ht).name.not_mem (by decide)
  · exact (hop.graphs g hg).not_mem (by decide)
  · exact (hop.attrs a ha).name.not_mem (by decide)

theorem newline_not_mem_bodyLines {c : Catalog} (hc : ∀ op ∈ c.operators, op.IsLegible) :
    ∀ l ∈ bodyLines c, '\n' ∉ l := by
  intro l hl
  rcases List.mem_append.1 hl with hl | hl
  · obtain ⟨op, hop, hl⟩ := List.mem_flatMap.1 hl
    rcases List.mem_append.1 hl with hl | hl
    · rcases List.mem_append.1 hl with hl | hl
      · exact newline_not_mem_documentation (newline_not_mem_fields (hc op hop)) (hc op hop).addedIn l hl
      · exact newline_not_mem_registration (hc op hop) l hl
    · obtain rfl := List.mem_singleton.1 hl
      exact List.not_mem_nil
  · have hclosing : ∀ l ∈ closingLines, '\n' ∉ l := by decide
    exact hclosing l hl

/-- Headers with the same text register the same operators in the same order, each with
the same entries. -/
theorem registered_eq_of_headerText_eq {c d : Catalog} {start base : String}
    (hc : ∀ op ∈ c.operators, op.IsLegible) (hd : ∀ op ∈ d.operators, op.IsLegible)
    (h : headerText c start base = headerText d start base) :
    c.operators.map Operator.registered = d.operators.map Operator.registered := by
  have hunlines : Text.unlines (bodyLines c) = Text.unlines (bodyLines d) := by
    have hall := String.ofList_inj.1 h
    simp only [headerLines, List.append_assoc, Text.unlines_append] at hall
    simpa only [bodyLines, Text.unlines_append] using List.append_cancel_left hall
  have hbody : bodyLines c = bodyLines d :=
    Text.unlines_injOn (newline_not_mem_bodyLines hc) (newline_not_mem_bodyLines hd) hunlines
  refine flatMap_registration_inj hc hd ?_
  rw [← filter_bodyLines, ← filter_bodyLines, hbody]

/-- An operator whose examples go on with what looks like another one. -/
def lookalike (description default : String) (isDynamic : Bool) : Operator where
  name := "Add"
  description := some description
  examples := some "a\n/\nREG_OP(Sub)"
  inputs := [{ name := "x", types := "DT_FLOAT", isOptional := true, isDynamic }]
  attrs := [{ name := "v", type := .tensor, default? := some default }]

theorem isLegible_lookalike (description : String) {default : String} (h : '\n' ∉ default.toList)
    (isDynamic : Bool) : (lookalike description default isDynamic).IsLegible where
  name := (by decide : Text.IsWord "Add")
  addedIn := by simp [lookalike]
  inputs := by
    have hx : Text.IsWord "x" := by decide
    have hfloat : '\n' ∉ "DT_FLOAT".toList := by decide
    simpa [lookalike] using ⟨hx, hfloat⟩
  outputs := by simp [lookalike]
  graphs := by simp [lookalike]
  attrs := by
    have hv : Text.IsWord "v" := by decide
    have htype : ∃ w, Text.IsWord w ∧ AttrType.tensor = .parse w :=
      ⟨"TENSOR", by decide, by decide +kernel⟩
    simpa [lookalike] using ⟨hv, htype, by simpa using h⟩

theorem registered_eq_of_lookalike :
    (∀ op ∈ [lookalike "Adds.\n.INPUT(y)" "1" true], op.IsLegible) ∧
    (∀ op ∈ [lookalike "\"Adds. \n.INPUT(y)\"" "2" false], op.IsLegible) ∧
    headerText ⟨"nn", [lookalike "Adds.\n.INPUT(y)" "1" true]⟩ "p_" "b" =
      headerText ⟨"math", [lookalike "\"Adds. \n.INPUT(y)\"" "2" false]⟩ "p_" "b" ∧
    [lookalike "Adds.\n.INPUT(y)" "1" true].map Operator.registered =
      [lookalike "\"Adds. \n.INPUT(y)\"" "2" false].map Operator.registered := by
  have hone : ∀ op ∈ [lookalike "Adds.\n.INPUT(y)" "1" true], op.IsLegible := by
    simpa using isLegible_lookalike _ (by decide) _
  have htwo : ∀ op ∈ [lookalike "\"Adds. \n.INPUT(y)\"" "2" false], op.IsLegible := by
    simpa using isLegible_lookalike _ (by decide) _
  have hlines : operatorLines (lookalike "Adds.\n.INPUT(y)" "1" true) =
      operatorLines (lookalike "\"Adds. \n.INPUT(y)\"" "2" false) := by
    decide +kernel
  have heq : headerText ⟨"nn", [lookalike "Adds.\n.INPUT(y)" "1" true]⟩ "p_" "b" =
      headerText ⟨"math", [lookalike "\"Adds. \n.INPUT(y)\"" "2" false]⟩ "p_" "b" := by
    simp only [headerText, headerLines, List.flatMap_cons, List.flatMap_nil, hlines]
  exact ⟨hone, htwo, heq, registered_eq_of_headerText_eq hone htwo heq⟩

end OpHeaders.Header
