import OpHeaders.Yaml.Scalar.Gap

/-! Plain scalars: words without quotes, joined over gaps. -/
namespace OpHeaders.Yaml

/-- A plain scalar, whether line breaks follow it, and the glyphs behind it. -/
structure PlainScalar where
  text : String
  broken : Bool
  rest : List Glyph

/-- A colon before a flow indicator may not stand in a plain scalar of a flow
collection. -/
def clashes (inFlow : Bool) (g : Glyph) (gs : List Glyph) : Bool :=
  inFlow && g.char = ':' && nextIs (fun g => ",?[]\x7b\x7d".toList.contains g.char) gs

/-- The indicators that end a plain scalar. -/
def endsPlain (inFlow : Bool) (g : Glyph) (gs : List Glyph) : Bool :=
  g.isEnd || (g.char = ':' && nextSeparates gs) || (inFlow && ",[]\x7b\x7d".toList.contains g.char)

/-- Reads on behind the words in `text`, which stands in reverse. Outside of flow
collections a line that is indented by less than `indent` ends the scalar. -/
def plainFrom (inFlow : Bool) (indent : Nat) (text : List Char) (gap : Option Gap) :
    List Glyph → Option PlainScalar
  | [] => some ⟨String.ofList text.reverse, gap.any (·.broken), []⟩
  | g :: gs =>
    if g.isBlank then
      if gap.any (·.broken) && g.column < indent && g.isTab then none
      else plainFrom inFlow indent text (some ((gap.getD {}).addBlank g.char)) gs
    else if g.isBreak then plainFrom inFlow indent text (some ((gap.getD {}).addBreak g.char)) gs
    else if gap.isSome && ((!inFlow && g.column < indent) || atDocumentMark (g :: gs) || g.char = '#')
        || (!clashes inFlow g gs && endsPlain inFlow g gs) then
      some ⟨String.ofList text.reverse, gap.any (·.broken), g :: gs⟩
    else if clashes inFlow g gs then none
    else plainFrom inFlow indent (g.char :: (gap.elim [] Gap.folded ++ text)) none gs

/-- The plain scalar at the start of a stream, in a block collection that is indented by
`indent - 1`. -/
def readPlain (inFlow : Bool) (indent : Nat) (gs : List Glyph) : Option PlainScalar :=
  plainFrom inFlow indent [] none gs

end OpHeaders.Yaml
