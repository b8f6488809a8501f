import OpHeaders.Schema.AttrType

/-! Operator schemas: a category of operators, each with its tensors, subgraphs and
attributes. Every list keeps the order of the document. -/
namespace OpHeaders.Schema

/-- An input or an output of an operator. -/
structure Tensor where
  name : String
  /-- The type constraint, such as `DT_FLOAT, DT_INT32`. -/
  types : String
  isOptional : Bool := false
  isDynamic : Bool := false
  description : String := ""
deriving DecidableEq, Repr

structure Subgraph where
  name : String
  isDynamic : Bool := false
  description : String := ""
deriving DecidableEq, Repr

structure Attribute where
  name : String
  type : AttrType
  isRequired : Bool := false
  /-- The literal of the default value; an empty text is a default too. -/
  default? : Option String := none
  description : String := ""
deriving DecidableEq, Repr

structure Operator where
  name : String
  description : Option String := none
  addedIn : Option String := none
  examples : Option String := none
  inputs : List Tensor := []
  outputs : List Tensor := []
  graphs : List Subgraph := []
  attrs : List Attribute := []
deriving DecidableEq, Repr

structure Catalog where
  category : String
  operators : List Operator
deriving DecidableEq, Repr

end OpHeaders.Schema
