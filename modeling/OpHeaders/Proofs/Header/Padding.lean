import Mathlib.Data.List.Forall2
import OpHeaders.Header.Text
import OpHeaders.Proofs.Header.Documentation
import OpHeaders.Proofs.Text.Padding

/-! Blanks at the ends of the lines of descriptions and examples. They do not show in a header:
what is laid out are the lines of a text, and the lines of a padded text are the same. So it does
not matter either by which line ends a schema was written. -/
namespace OpHeaders.Schema

open Text (withReturns)

/-! ### Padded operators -/

/-- Whether the second text is the first one with blanks put in front of newlines. -/
def PadsText (s t : String) : Prop := Text.Pads s.toList t.toList

/-- `PadsText` on the descriptions of two fields of one name. -/
def FieldPads (f g : String × String) : Prop := f.1 = g.1 ∧ PadsText f.2 g.2

def Tensor.Pads (t u : Tensor) : Prop :=
  PadsText t.description u.description ∧ u = { t with description := u.description }

def Subgraph.Pads (g h : Subgraph) : Prop :=
  PadsText g.description h.description ∧ h = { g with description := h.description }

def Attribute.Pads (a b : Attribute) : Prop :=
  PadsText a.description b.description ∧ b = { a with description := b.description }

/-- Whether the second operator is the first one with blanks put in front of newlines in its
descriptions and its examples. -/
structure Operator.Pads (op rep : Operator) : Prop where
  name : op.name = rep.name
  description : Option.Rel PadsText op.description rep.description
  addedIn : op.addedIn = rep.addedIn
  examples : Option.Rel PadsText op.examples rep.examples
  inputs : List.Forall₂ Tensor.Pads op.inputs rep.inputs
  outputs : List.Forall₂ Tensor.Pads op.outputs rep.outputs
  graphs : List.Forall₂ Subgraph.Pads op.graphs rep.graphs
  attrs : List.Forall₂ Attribute.Pads op.attrs rep.attrs

theorem Tensor.fieldPads (t u : Tensor) (h : t.Pads u) :
    FieldPads (t.name, t.description) (u.name, u.description) :=
  ⟨by rw [h.2], h.1⟩

theorem Subgraph.fieldPads (g k : Subgraph) (h : g.Pads k) :
    FieldPads (g.name, g.description) (k.name, k.description) :=
  ⟨by rw [h.2], h.1⟩

theorem Attribute.fieldPads (a b : Attribute) (h : a.Pads b) :
    FieldPads (a.name, a.description) (b.name, b.description) :=
  ⟨by rw [h.2], h.1⟩

/-- `withReturns` on strings. -/
def returned (s : String) : String := String.ofList (withReturns s.toList)

/-- The operator with a carriage return in front of every newline of its descriptions and examples. -/
def Operator.returned (op : Operator) : Operator :=
  { op with
    description := op.description.map Schema.returned
    examples := op.examples.map Schema.returned
    inputs := op.inputs.map fun t => { t with description := Schema.returned t.description }
    outputs := op.outputs.map fun t => { t with description := Schema.returned t.description }
    graphs := op.graphs.map fun g => { g with description := Schema.returned g.description }
    attrs := op.attrs.map fun a => { a with description := Schema.returned a.description } }

theorem padsText_returned (s : String) : PadsText s (returned s) := by
  rw [PadsText, returned, String.toList_ofList]
  exact .withReturns s.toList

theorem Operator.pads_returned (op : Operator) : op.Pads op.returned := by
  have htext : ∀ s : Option String, Option.Rel PadsText s (s.map Schema.returned) := fun s => by
    cases s with
    | none => exact .none
    | some s => exact .some (padsText_returned s)
  have hlist : ∀ {α : Type} (R : α → α → Prop) (f : α → α) (xs : List α), (∀ x, R x (f x)) →
      List.Forall₂ R xs (xs.map f) := fun R f xs h =>
    List.forall₂_map_right_iff.2 (List.forall₂_same.2 fun x _ => h x)
  exact {
    name := rfl
    description := htext op.description
    addedIn := rfl
    examples := htext op.examples
    inputs := hlist _ _ _ fun t => ⟨padsText_returned t.description, rfl⟩
    outputs := hlist _ _ _ fun t => ⟨padsText_returned t.description, rfl⟩
    graphs := hlist _ _ _ fun g => ⟨padsText_returned g.description, rfl⟩
    attrs := hlist _ _ _ fun a => ⟨padsText_returned a.description, rfl⟩ }

end OpHeaders.Schema

namespace OpHeaders.Header

open Schema

/-! ### The same lines -/

theorem describedLines_eq_of_pads {s t : String} (h : PadsText s t) : describedLines s = describedLines t :=
  h.unquote.lines_eq

theorem paragraphLines_congr {s t : Option String} (h : Option.Rel PadsText s t) :
    paragraphLines (s.getD "") = paragraphLines (t.getD "") := by
  cases h with
  | none => rfl
  | some h => exact congrArg (List.map _) (describedLines_eq_of_pads h)

theorem exampleLines_congr {s t : Option String} (h : Option.Rel PadsText s t) :
    exampleLines s = exampleLines t := by
  cases h with
  | none => rfl
  | @some s t h =>
    have hblank : Text.trim s.toList = [] ↔ Text.trim t.toList = [] := h.trim_eq_nil_iff
    have hblock : blockLines fieldIndent s = blockLines fieldIndent t := by
      rw [blockLines, blockLines, describedLines_eq_of_pads h]
    unfold exampleLines
    simp only [Option.getD_some, hblock]
    split <;> split <;> simp_all

theorem captioned_congr {α : Type} {R : α → α → Prop} {f : α → String × String} {xs ys : List α} {name : String}
    (hf : ∀ x y, R x y → FieldPads (f x) (f y)) (h : List.Forall₂ R xs ys) :
    captioned name (xs.map f) = captioned name (ys.map f) := by
  have hfields : ((xs.map f).flatMap fun d => fieldLines fieldIndent d.1 d.2) =
      (ys.map f).flatMap fun d => fieldLines fieldIndent d.1 d.2 := by
    induction h with
    | nil => rfl
    | cons hxy _ ih =>
      obtain ⟨hname, htext⟩ := hf _ _ hxy
      rw [List.map_cons, List.map_cons, List.flatMap_cons, List.flatMap_cons, ih, fieldLines, fieldLines, hname,
        describedLines_eq_of_pads htext]
  cases h with
  | nil => rfl
  | cons => exact congrArg (caption name :: ·) hfields

section

variable {op rep : Operator}

theorem innerLines_congr (h : op.Pads rep) : innerLines op = innerLines rep := by
  rw [innerLines, innerLines, paragraphLines_congr h.description, captioned_congr Tensor.fieldPads h.inputs,
    captioned_congr Tensor.fieldPads h.outputs, captioned_congr Subgraph.fieldPads h.graphs,
    captioned_congr Attribute.fieldPads h.attrs, h.addedIn, exampleLines_congr h.examples]

theorem map_eq_map_of_forall₂ {α β : Type} {R : α → α → Prop} {f : α → β} {xs ys : List α}
    (hf : ∀ x y, R x y → f x = f y) (h : List.Forall₂ R xs ys) : xs.map f = ys.map f := by
  have hmap : List.Forall₂ (· = ·) (xs.map f) (ys.map f) := List.rel_map hf h
  rwa [List.forall₂_eq_eq_eq] at hmap

/-- No directive shows a description. -/
theorem registration_congr (h : op.Pads rep) : registration op = registration rep := by
  have htensors : ∀ (directive : String) {ts us : List Tensor}, List.Forall₂ Tensor.Pads ts us →
      ts.map (tensorLine directive) = us.map (tensorLine directive) := fun directive ts us =>
    map_eq_map_of_forall₂ fun t u htu => by rw [htu.2]; rfl
  have hgraphs : op.graphs.map graphLine = rep.graphs.map graphLine :=
    map_eq_map_of_forall₂ (fun g k hgk => by rw [hgk.2]; rfl) h.graphs
  have hattrs : op.attrs.map attrLine = rep.attrs.map attrLine :=
    map_eq_map_of_forall₂ (fun a b hab => by rw [hab.2]; rfl) h.attrs
  rw [registration, registration, h.name, htensors "INPUT" h.inputs, htensors "OUTPUT" h.outputs, hgraphs, hattrs]

theorem operatorText_congr (h : op.Pads rep) : operatorText op = operatorText rep := by
  rw [operatorText, operatorText, operatorLines, operatorLines, documentation, documentation,
    innerLines_congr h, registration_congr h]

end

/-- An operator shows the same whatever blanks are put in front of the newlines of its descriptions and
examples, a carriage return in front of each of them among others. -/
theorem operatorText_indifferent (op : Operator) :
    (∀ rep, op.Pads rep → operatorText op = operatorText rep) ∧ operatorText op = operatorText op.returned :=
  ⟨fun _ h => operatorText_congr h, operatorText_congr op.pads_returned⟩

/-- An operator with quotes and backslashes next to newlines. -/
def escaped : Operator where
  name := "Add"
  description := some "\"a\\\n\"b\n\n c\n\""
  examples := some "\n"
  inputs := [{ name := "x", types := "DT_FLOAT", description := "\nleft\n" }]

/-- The same one with blanks of several kinds in front of newlines. -/
def escapedPadded : Operator where
  name := "Add"
  description := some "\"a\\\r\n\"b \t\n\u3000\n c\n\""
  examples := some "\t\n"
  inputs := [{ name := "x", types := "DT_FLOAT", description := " \nleft\r\n" }]

theorem operatorText_escaped :
    escaped.Pads escapedPadded ∧ operatorText escaped = operatorText escapedPadded := by
  have hreturn : Text.isAllBlank ['\r'] = true ∧ '\n' ∉ ['\r'] := by decide
  have hend : PadsText "\n\n c\n\"" " \t\n\u3000\n c\n\"" :=
    @Text.Pads.newline [' ', '\t'] _ _ (by decide) (by decide)
      (@Text.Pads.newline ['\u3000'] _ _ (by decide) (by decide) (.refl " c\n\"".toList))
  have hdescription : PadsText "\"a\\\n\"b\n\n c\n\"" "\"a\\\r\n\"b \t\n\u3000\n c\n\"" :=
    .cons '"' (.cons 'a' (.cons '\\' (.newline hreturn.1 hreturn.2 (.cons '"' (.cons 'b' hend)))))
  have hslot : PadsText "\nleft\n" " \nleft\r\n" :=
    @Text.Pads.newline [' '] _ _ (by decide) (by decide)
      (.cons 'l' (.cons 'e' (.cons 'f' (.cons 't' (.newline hreturn.1 hreturn.2 .nil)))))
  have hexamples : PadsText "\n" "\t\n" := @Text.Pads.newline ['\t'] _ _ (by decide) (by decide) .nil
  have hpads : escaped.Pads escapedPadded := {
    name := rfl
    description := .some hdescription
    addedIn := rfl
    examples := .some hexamples
    inputs := .cons ⟨hslot, rfl⟩ .nil
    outputs := .nil
    graphs := .nil
    attrs := .nil }
  exact ⟨hpads, (operatorText_indifferent _).1 _ hpads⟩

end OpHeaders.Header
