/-! Tokens of a YAML stream. Indentation is already turned into the tokens that open and
close block collections. -/
namespace OpHeaders.Yaml

/-- How a scalar is written, as far as its meaning depends on it. -/
inductive Style where
  | plain
  | quoted
  | literal
  | folded
deriving DecidableEq, Repr

/-- The bytes of a tag. Percent escapes may spell any of them, so a tag need not be text. -/
abbrev Tag := List UInt8

/-- The tag that is a given text. -/
def Tag.ofText (text : String) : Tag := text.toUTF8.toList

inductive Token where
  | version (major minor : Nat)
  | tagHandle (handle : String) (stem : Tag)
  | documentStart
  | documentEnd
  | blockSequence
  | blockMapping
  | blockEnd
  | flowSequence
  | flowSequenceEnd
  | flowMapping
  | flowMappingEnd
  | blockEntry
  | flowEntry
  | key
  | value
  | alias (name : String)
  | anchor (name : String)
  | tag (handle : String) (suffix : Tag)
  | scalar (style : Style) (text : String)
deriving DecidableEq, Repr

end OpHeaders.Yaml
