import OpHeaders.Yaml.Node.Builder
import OpHeaders.Yaml.Resolve

/-! From a document to the value that it denotes. Aliases are replaced by what they refer
to. A document is refused if it is nested too deeply, if its aliases multiply too often,
if a mapping has the same key twice, or if a scalar contradicts its tag. -/
namespace OpHeaders.Yaml

/-- Collections may be nested that deep. -/
def maxDepth : Nat := 128

/-- That many aliases may be followed per unit of the document's size. -/
def maxJumpsPerUnit : Nat := 100

/-- The number of aliases followed so far, or a refusal. -/
abbrev Expansion (α : Type) := StateT Nat Option α

/-- The node itself, or the one that an alias refers to. -/
def Document.follow (d : Document) : Node → Expansion Node
  | .alias slot => do
    modify (· + 1)
    if maxJumpsPerUnit * d.size < (← get) then failure
    else match d.node? slot with
      | some n => pure n
      | none => failure
  | n => pure n

def Node.tag : Node → Option Tag
  | .scalar tag _ _ | .sequence tag _ | .mapping tag _ => tag
  | .alias _ => none

/-- The name of a tag that makes a tagged value: one that is text and starts with `!`,
which is not part of the name unless it is all of it. -/
def ownTag? (tag : Option Tag) : Option String :=
  tag.bind fun t => (String.fromUTF8? ⟨t.toArray⟩).bind fun text => match text.toList with
    | ['!'] => some "!"
    | '!' :: s => some (String.ofList s)
    | _ => none

/-- A value under the tag of its node. -/
def underTag (tag : Option Tag) (v : Value) : Value :=
  match ownTag? tag with
  | some name => .tagged name v
  | none => v

/-- The value of a node inside at most `depth` more collections. -/
def Document.expand (d : Document) : (depth : Nat) → Node → Expansion Value
  | depth, n => do
    let n ← d.follow n
    let value : Value ← match n with
      | .scalar tag style text => match resolve? tag style text with
        | some v => pure v
        | none => failure
      | .sequence _ items => match depth with
        | 0 => failure
        | depth + 1 => do
          let items ← items.mapM (d.expand depth)
          pure (.sequence items)
      | .mapping _ entries => match depth with
        | 0 => failure
        | depth + 1 => do
          let entries ← entries.mapM fun e => do
            let key ← d.expand depth e.1
            let value ← d.expand depth e.2
            pure (key, value)
          if Value.distinctKeys entries then pure (.mapping entries) else failure
      | .alias _ => failure
    pure (underTag n.tag value)

/-- The value of a document; an empty stream is null. -/
def Document.value? (d : Document) : Option Value :=
  match d.root with
  | none => some .null
  | some n => ((d.expand maxDepth n).run 0).map Prod.fst

/-- The value that a text denotes. -/
def Value.ofText? (text : String) : Option Value := (Document.ofText? text).bind Document.value?

end OpHeaders.Yaml
