import OpHeaders.Header.Comment
import OpHeaders.Schema.Catalog

/-! The documentation comment of an operator: its description, a section for every kind
of entry that it has, the version that it was added in, and its examples. -/
namespace OpHeaders.Header

open Schema

def caption (name : String) : List Char := marker ++ " <".toList ++ name.toList ++ ['>']

/-- A captioned list of fields, each with a name and a description; nothing without
fields. -/
def captioned (name : String) (fields : List (String × String)) : List (List Char) :=
  if fields.isEmpty then []
  else caption name :: fields.flatMap fun f => fieldLines fieldIndent f.1 f.2

/-- The version; nothing if it is absent or blank. -/
def versionLines (version : Option String) : List (List Char) :=
  match Text.trim (version.getD "").toList with
  | [] => []
  | v => [caption "Added in HiAI version", marker ++ pad fieldIndent ++ v]

/-- The examples; nothing if they are absent or blank. -/
def exampleLines (examples : Option String) : List (List Char) :=
  match Text.trim (examples.getD "").toList with
  | [] => []
  | _ => caption "Examples" :: blockLines fieldIndent (examples.getD "")

/-- The lines between the opening and the closing one. -/
def innerLines (op : Operator) : List (List Char) :=
  paragraphLines (op.description.getD "") ++
  captioned "Input" (op.inputs.map fun t => (t.name, t.description)) ++
  captioned "Output" (op.outputs.map fun t => (t.name, t.description)) ++
  captioned "Graph" (op.graphs.map fun g => (g.name, g.description)) ++
  captioned "Attr" (op.attrs.map fun a => (a.name, a.description)) ++
  versionLines op.addedIn ++
  exampleLines op.examples

def documentation (op : Operator) : List (List Char) :=
  "/*".toList :: innerLines op ++ [" */".toList]

end OpHeaders.Header
