import OpHeaders.Yaml.Token

/-! The nodes of a YAML document as they are written: scalars are uninterpreted texts, and
an alias only names the slot of the anchor that it refers to. -/
namespace OpHeaders.Yaml

inductive Node where
  | scalar (tag : Option Tag) (style : Style) (text : String)
  | sequence (tag : Option Tag) (items : List Node)
  | mapping (tag : Option Tag) (entries : List (Node × Node))
  | alias (slot : Nat)
deriving Inhabited

/-- The node that stands where nothing is written. -/
def Node.empty : Node := .scalar none .plain ""

/-- A document. Its `size` counts a scalar and an alias once and a collection twice, and
an empty stream as one. -/
structure Document where
  root : Option Node
  anchored : List (Nat × Node)
  size : Nat

/-- The node of an anchor slot. -/
def Document.node? (d : Document) (slot : Nat) : Option Node := d.anchored.lookup slot

end OpHeaders.Yaml
