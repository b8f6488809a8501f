import OpHeaders.Schema.Catalog

/-! The registration block of an operator: a chain of directives, one a line. -/
namespace OpHeaders.Header

open Schema

/-- A directive with its arguments in parentheses. -/
def call (directive : String) (arguments : List Char) : List Char :=
  directive.toList ++ '(' :: arguments ++ [')']

/-- A text between brackets, with a space on either side unless it is empty. -/
def enclosed (left : String) (s : List Char) (right : String) : List Char :=
  if s.isEmpty then left.toList ++ right.toList
  else left.toList ++ ' ' :: s ++ ' ' :: right.toList

/-- What a tensor attribute starts out as, whatever its default is. -/
def emptyTensor : List Char := "(new (std::nothrow) Tensor(TensorDesc()))".toList

/-- The literal of a default value, as it stands behind the type. -/
def literal (type : AttrType) (value : List Char) : List Char :=
  match type with
  | .str => " \x7b \"".toList ++ value ++ "\" \x7d".toList
  | .list | .listInt | .listFloat => enclosed " (\x7b" value "\x7d)"
  | .namedAttrs => enclosed "(" value ")"
  | .tensor => emptyTensor
  | .int | .float | .bool | .other _ => enclosed " \x7b" value "\x7d"

/-- A tensor that is both optional and dynamic counts as optional. -/
def tensorLine (directive : String) (t : Tensor) : List Char :=
  let form := if t.isOptional then ".OPTIONAL_" else if t.isDynamic then ".DYNAMIC_" else "."
  call (form ++ directive)
    (t.name.toList ++ ", TensorType(\x7b ".toList ++ t.types.toList ++ " \x7d)".toList)

def graphLine (g : Subgraph) : List Char :=
  call (if g.isDynamic then ".DYNAMIC_GRAPH" else ".REQUIRED_GRAPH") g.name.toList

def attrLine (a : Attribute) : List Char :=
  call (if a.isRequired then ".REQUIRED_ATTR" else ".ATTR")
    (a.name.toList ++ ", AttrValue::".toList ++ a.type.tag.toList ++
      (a.default?.map fun d => literal a.type d.toList).getD [])

def registration (op : Operator) : List (List Char) :=
  call "REG_OP" op.name.toList ::
    (op.inputs.map (tensorLine "INPUT") ++ op.outputs.map (tensorLine "OUTPUT") ++
      op.graphs.map graphLine ++ op.attrs.map attrLine ++ [call ".OP_END" []])

end OpHeaders.Header
