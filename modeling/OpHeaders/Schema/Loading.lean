import OpHeaders.Schema.Catalog
import OpHeaders.Schema.Error
import OpHeaders.Yaml.Value.Expand

/-! From a document to its catalog. The document is a mapping; its first key is the
category, whose value maps the names of operators to their bodies. Bodies may be tagged;
fields that are not known are ignored. The first offence in document order is reported. -/
namespace OpHeaders.Schema

open Yaml (Value)

/-- The entries of a mapping. -/
abbrev Entries := List (Value × Value)

/-! ### Fields -/

/-- The text of an untagged string or truth value. -/
def scalarText (p : Place) (part : Part) : Value → Except Malformed String
  | .string s => .ok s
  | .bool b => .ok (if b then "true" else "false")
  | .number n => .error ⟨p, .number part n⟩
  | _ => .error ⟨p, .notScalar part⟩

/-- The text of a field, which may be absent or null. -/
def text? (p : Place) (es : Entries) (name : String) : Except Malformed (Option String) :=
  match Value.field? name es with
  | none | some .null => .ok none
  | some v => (scalarText p (.field name) v).map some

def requiredText (p : Place) (es : Entries) (name : String) : Except Malformed String := do
  match ← text? p es name with
  | some s => pure s
  | none => .error ⟨p, .missing name⟩

/-- A truth value that is false if it is absent or null. -/
def flag (p : Place) (es : Entries) (name : String) : Except Malformed Bool :=
  match Value.field? name es with
  | none | some .null => .ok false
  | some (.bool b) => .ok b
  | some _ => .error ⟨p, .notFlag name⟩

/-- The comment without the blanks around it; empty if there is none. -/
def comment (p : Place) (es : Entries) : Except Malformed String :=
  (text? p es "comment").map fun s => Text.trimmed (s.getD "")

/-- The entries of a field that maps names to bodies; none if it is absent or null. -/
def entriesOf (p : Place) (es : Entries) (name : String) : Except Malformed Entries :=
  match Value.field? name es with
  | none | some .null => .ok []
  | some (.mapping entries) => .ok entries
  | some _ => .error ⟨p, .entriesNotMapping name⟩

/-- The entries of a mapping that may be tagged. -/
def body (p : Place) (offence : Offence) (v : Value) : Except Malformed Entries :=
  match v.entries? with
  | some es => .ok es
  | none => .error ⟨p, offence⟩

/-! ### Entries of an operator -/

/-- The name of an entry, its place and its fields. -/
def entry (origin owner : String) (kind : EntryKind) (e : Value × Value) :
    Except Malformed (String × Place × Entries) := do
  let name ← scalarText (.operator origin owner) .key e.1
  let p := Place.entry origin owner kind name
  let es ← body p .entryNotMapping e.2
  pure (name, p, es)

def Tensor.load (origin owner : String) (e : Value × Value) : Except Malformed Tensor := do
  let (name, p, es) ← entry origin owner .tensor e
  let types ← requiredText p es "tensor_types"
  let isOptional ← flag p es "optional"
  let isDynamic ← flag p es "dynamic"
  let description ← comment p es
  pure { name, types, isOptional, isDynamic, description }

def Subgraph.load (origin owner : String) (e : Value × Value) : Except Malformed Subgraph := do
  let (name, p, es) ← entry origin owner .graph e
  let isDynamic ← flag p es "dynamic"
  let description ← comment p es
  pure { name, isDynamic, description }

def Attribute.load (origin owner : String) (e : Value × Value) : Except Malformed Attribute := do
  let (name, p, es) ← entry origin owner .attr e
  let type ← requiredText p es "type"
  let isRequired ← flag p es "required"
  let default? ← text? p es "default"
  let description ← comment p es
  pure { name, type := .parse type, isRequired, default?, description }

/-! ### Operators and catalogs -/

/-- The fields of an operator body. A blank comment is none. -/
def Operator.loadBody (origin name : String) (es : Entries) : Except Malformed Operator := do
  let p := Place.operator origin name
  let description ← comment p es
  let addedIn ← text? p es "add_version"
  let examples ← text? p es "examples"
  let inputs ← (← entriesOf p es "inputs").mapM (Tensor.load origin name)
  let outputs ← (← entriesOf p es "outputs").mapM (Tensor.load origin name)
  let graphs ← (← entriesOf p es "graphs").mapM (Subgraph.load origin name)
  let attrs ← (← entriesOf p es "attrs").mapM (Attribute.load origin name)
  pure
    { name, addedIn, examples, inputs, outputs, graphs, attrs
      description := if description.isEmpty then none else some description }

/-- An operator by its name and its body, which may be null. -/
def Operator.load (origin : String) (e : Value × Value) : Except Malformed Operator := do
  let name ← scalarText (.document origin) .key e.1
  match e.2 with
  | .null => pure { name }
  | v => Operator.loadBody origin name (← body (.operator origin name) .operatorNotMapping v)

namespace Catalog

/-- The catalog of a document. Only the first entry of the document counts. -/
def ofValue (origin : String) (v : Value) : Except Malformed Catalog := do
  let p := Place.document origin
  match ← body p .rootNotMapping v with
  | [] => .error ⟨p, .noCategory⟩
  | (key, ops) :: _ =>
    let category ← scalarText p .key key
    let es ← body p (.categoryNotMapping category) ops
    let operators ← es.mapM (Operator.load origin)
    pure { category, operators }

/-- The catalog of a text. -/
def ofText (origin text : String) : Except Malformed Catalog :=
  match Value.ofText? text with
  | some v => ofValue origin v
  | none => .error ⟨.document origin, .notYaml text⟩

end Catalog

end OpHeaders.Schema
