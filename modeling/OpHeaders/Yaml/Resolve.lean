import OpHeaders.Yaml.Token
import OpHeaders.Yaml.Value

/-! What the text of a scalar denotes. A plain scalar without a tag may denote null, a
truth value or a number; a few tags demand one of these of any scalar; everything else
denotes its text. -/
namespace OpHeaders.Yaml

def isNullText (s : String) : Bool := ["~", "null", "Null", "NULL"].contains s

def bool? (s : String) : Option Bool :=
  if ["true", "True", "TRUE"].contains s then some true
  else if ["false", "False", "FALSE"].contains s then some false
  else none

/-- What a text says as an integer. -/
inductive IntegerReading where
  | integer (n : Int)
  /-- An integer of more than 64 and at most 128 bits. -/
  | oversized
  | noInteger

def readInteger (s : List Char) : IntegerReading :=
  match Number.integer? 64 s with
  | some n => .integer n
  | none => if (Number.integer? 128 s).isSome then .oversized else .noInteger

/-- A plain scalar without a tag; an oversized integer is refused. -/
def resolvePlain? (s : String) : Option Value :=
  if s.isEmpty || isNullText s then some .null
  else match bool? s with
    | some b => some (.bool b)
    | none => match readInteger s.toList with
      | .integer n => some (.number (.int n))
      | .oversized => none
      | .noInteger =>
        if Number.hasLeadingZero s.toList then some (.string s)
        else match Number.float? s.toList with
          | some x => some (.number (.float x))
          | none => some (.string s)

def standardTag (name : String) : Tag := .ofText ("tag:yaml.org,2002:" ++ name)

/-- A scalar by its tag. A tag that starts with `!` leaves the text to its style. -/
def resolve? (tag : Option Tag) (style : Style) (s : String) : Option Value :=
  let byStyle := if style = .plain then resolvePlain? s else some (.string s)
  match tag with
  | none => byStyle
  | some t =>
    if t = standardTag "bool" then (bool? s).map .bool
    else if t = standardTag "int" then match readInteger s.toList with
      | .integer n => some (.number (.int n))
      | _ => none
    else if t = standardTag "float" then (Number.float? s.toList).map fun x => .number (.float x)
    else if t = standardTag "null" then (if isNullText s then some .null else none)
    else if (Tag.ofText "!").isPrefixOf t then byStyle
    else some (.string s)

end OpHeaders.Yaml
