import OpHeaders.Yaml.Glyph

/-! The gap between two words of a plain or quoted scalar: blanks within a line, or line
breaks with the blanks around them. -/
namespace OpHeaders.Yaml

/-- `first` is the first line break and `more` are the others, the last one foremost;
`blanks` are the blanks before any break, the last one foremost. An escaped line break
makes a gap `broken` without a first break. -/
structure Gap where
  broken : Bool := false
  first : Option Char := none
  more : List Char := []
  blanks : List Char := []

namespace Gap

/-- Blanks beside a line break do not count. -/
def addBlank (gap : Gap) (c : Char) : Gap :=
  if gap.broken then gap else { gap with blanks := c :: gap.blanks }

def addBreak (gap : Gap) (c : Char) : Gap :=
  if gap.broken then { gap with more := c :: gap.more }
  else { broken := true, first := some c }

/-- What a gap contributes to the text, the last character foremost: a lone newline is a
space, a newline before other breaks is dropped, everything else stands. -/
def folded (gap : Gap) : List Char :=
  if gap.broken then match gap.first with
    | some '\n' => if gap.more.isEmpty then [' '] else gap.more
    | some c => gap.more ++ [c]
    | none => gap.more
  else gap.blanks

end Gap

end OpHeaders.Yaml
