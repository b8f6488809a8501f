import OpHeaders.Yaml.Glyph

/-! Literal and folded block scalars. The first line that is not blank gives the
indentation unless the header does; the header also says what becomes of the line breaks
at the end. -/
namespace OpHeaders.Yaml

/-- The line breaks that are kept at the end: none, the first, or all. -/
inductive Chomping where
  | strip
  | clip
  | keep
deriving DecidableEq

structure BlockHeader where
  chomping : Chomping := .clip
  /-- The indentation beyond that of the collection around the scalar. -/
  increment : Option Nat := none

def chomping? (g : Glyph) : Option Chomping :=
  if g.char = '+' then some .keep else if g.char = '-' then some .strip else none

/-- A digit other than zero; zero itself is refused. -/
def increment? (g : Glyph) : Option (Option Nat) :=
  if g.char = '0' then some none
  else if g.char.isDigit then some (some (g.char.toNat - '0'.toNat))
  else none

/-- The chomping and the increment in either order, each at most once. -/
def readBlockHeader : List Glyph → Option (BlockHeader × List Glyph)
  | [] => some ({}, [])
  | g :: gs => match chomping? g with
    | some chomping => match gs with
      | [] => some ({ chomping }, [])
      | d :: ds => match increment? d with
        | some (some n) => some ({ chomping, increment := some n }, ds)
        | some none => none
        | none => some ({ chomping }, d :: ds)
    | none => match increment? g with
      | some (some n) => match gs with
        | [] => some ({ increment := some n }, [])
        | c :: cs => match chomping? c with
          | some chomping => some ({ chomping, increment := some n }, cs)
          | none => some ({ increment := some n }, c :: cs)
      | some none => none
      | none => some ({}, g :: gs)

/-- Blanks and a comment up to the end of the line, and the line break. -/
def skipLineEnd (gs : List Glyph) : Option (List Glyph) :=
  let gs := gs.dropWhile Glyph.isBlank
  let gs := if nextIsChar '#' gs then gs.dropWhile (!·.isBreakOrEnd) else gs
  match gs with
  | [] => some []
  | g :: rest => if g.isBreak then some rest else if g.isEnd then some gs else none

/-- The text so far stands in reverse. `lineBreak` ends the last line and `breaks` are the
empty lines after it, the last one foremost; `blankStart` tells whether the last line
starts with a blank. -/
structure BlockText where
  text : List Char := []
  lineBreak : Option Char := none
  breaks : List Char := []
  blankStart : Bool := false

/-- Joins the next line, which starts with the glyph `g`. A folded scalar turns a newline
into a space, or drops it before empty lines, unless a line beside it starts with a
blank. -/
def BlockText.join (literal : Bool) (b : BlockText) (g : Glyph) : BlockText :=
  let folds := !literal && b.lineBreak = some '\n' && !b.blankStart && !g.isBlank
  let start :=
    if folds then (if b.breaks.isEmpty then ' ' :: b.text else b.breaks ++ b.text)
    else b.breaks ++ (b.lineBreak.toList ++ b.text)
  { text := g.char :: start, blankStart := g.isBlank }

def BlockText.finish (b : BlockText) (chomping : Chomping) : String :=
  let text := match chomping with
    | .strip => b.text
    | .clip => b.lineBreak.toList ++ b.text
    | .keep => b.breaks ++ (b.lineBreak.toList ++ b.text)
  String.ofList text.reverse

/-- Where a reader stands: in the indentation, having seen lines of up to `widest` columns
while the indentation is unknown, or within a line. -/
inductive BlockPlace where
  | indentation (widest : Nat)
  | line

/-- Reads lines that are indented by `indent`. Before it is known it is none, and then at
least `least`. -/
def blockFrom (literal : Bool) (least : Nat) (indent : Option Nat) (b : BlockText) (place : BlockPlace) :
    List Glyph → Option (BlockText × List Glyph)
  | [] => some (b, [])
  | g :: gs => match place with
    | .line =>
      if g.isBreak then
        blockFrom literal least indent { b with lineBreak := some g.char } (.indentation 0) gs
      else if g.isEnd then some (b, g :: gs)
      else blockFrom literal least indent { b with text := g.char :: b.text } .line gs
    | .indentation widest =>
      let within := indent.all (g.column < ·)
      if within && g.char = ' ' then blockFrom literal least indent b (.indentation widest) gs
      else if within && g.isTab then none
      else
        let widest := max widest g.column
        if g.isBreak then
          blockFrom literal least indent { b with breaks := g.char :: b.breaks } (.indentation widest) gs
        else
          let width := indent.getD (max widest least)
          if g.column = width && !g.isEnd then
            blockFrom literal least (some width) (b.join literal g) .line gs
          else some (b, g :: gs)

/-- The text of a block scalar behind its indicator, in a collection that is indented by
`around` columns, and the glyphs behind it. -/
def readBlock (literal : Bool) (around : Int) (gs : List Glyph) : Option (String × List Glyph) := do
  let (header, gs) ← readBlockHeader gs
  let gs ← skipLineEnd gs
  let indent := header.increment.map fun n => max around 0 |>.toNat |> (· + n)
  let (b, gs) ← blockFrom literal (max (around + 1) 1).toNat indent {} (.indentation 0) gs
  pure (b.finish header.chomping, gs)

end OpHeaders.Yaml
