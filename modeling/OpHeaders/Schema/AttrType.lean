import OpHeaders.Text.Blank

/-! The types of operator attributes. Nine of them have a literal form of their own; every
other tag is kept as it is. -/
namespace OpHeaders.Schema

inductive AttrType where
  | str
  | int
  | float
  | bool
  | list
  | listInt
  | listFloat
  | namedAttrs
  | tensor
  | other (tag : String)
deriving DecidableEq, Repr

namespace AttrType

/-- The type with this very tag; one type has two spellings. -/
def ofTag (tag : String) : AttrType :=
  match tag with
  | "STR" => .str
  | "INT" => .int
  | "FLOAT" => .float
  | "BOOL" => .bool
  | "LIST" => .list
  | "LIST_INT" => .listInt
  | "LIST_FLOAT" => .listFloat
  | "NamedAttrs" => .namedAttrs
  | "NAMED_ATTRS" => .namedAttrs
  | "TENSOR" => .tensor
  | tag => .other tag

/-- Blanks around a tag do not count. -/
def parse (text : String) : AttrType := ofTag (Text.trimmed text)

/-- The tag that stands in a header. -/
def tag : AttrType → String
  | .str => "STR"
  | .int => "INT"
  | .float => "FLOAT"
  | .bool => "BOOL"
  | .list => "LIST"
  | .listInt => "LIST_INT"
  | .listFloat => "LIST_FLOAT"
  | .namedAttrs => "NamedAttrs"
  | .tensor => "TENSOR"
  | .other tag => tag

example : parse " NAMED_ATTRS\n" = .namedAttrs ∧ parse "LIST_STR" = .other "LIST_STR" := by
  decide +kernel

end AttrType

end OpHeaders.Schema
