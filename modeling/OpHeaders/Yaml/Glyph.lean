/-! The characters of a YAML stream with their places. Carriage return and line feed,
each alone or both together, and the next-line control count as one newline; the line
and paragraph separators break lines too but stay what they are. -/
namespace OpHeaders.Yaml

/-- A character, the number of bytes before it in UTF-8, and its line and column, which
counts characters. -/
structure Glyph where
  char : Char
  index : Nat
  line : Nat
  column : Nat
deriving Inhabited

/-- The character of the glyph that stands behind the last one of every stream. -/
def endChar : Char := '\x00'

/-- No other control character may occur, nor the end mark, nor a noncharacter of the
first plane. -/
def isAllowed (c : Char) : Bool :=
  c = '\t' || c = '\n' || c = '\r' || (' ' ≤ c && c ≤ '~') || c = '\u0085' ||
  ('\u00a0' ≤ c && c ≤ '\ufffd') || '\uffff' < c

/-- The characters that break a line once newlines are alike. -/
def isBreakChar (c : Char) : Bool := c = '\n' || c = '\u2028' || c = '\u2029'

namespace Glyph

def isEnd (g : Glyph) : Bool := g.char = endChar
def isBreak (g : Glyph) : Bool := isBreakChar g.char
def isTab (g : Glyph) : Bool := g.char = '\t'
def isBlank (g : Glyph) : Bool := g.char = ' ' || g.char = '\t'
def isBreakOrEnd (g : Glyph) : Bool := g.isBreak || g.isEnd
def isSeparator (g : Glyph) : Bool := g.isBlank || g.isBreakOrEnd

/-- The characters of names: letters and digits of ASCII, `_` and `-`. -/
def isWord (g : Glyph) : Bool := g.char.isAlphanum || g.char = '_' || g.char = '-'

end Glyph

/-- The glyphs of a text from a given place on, put before those already placed, which
stand in reverse. -/
def placeFrom (index line column : Nat) (placed : List Glyph) : List Char → List Glyph
  | [] => (⟨endChar, index, line, column⟩ :: placed).reverse
  | '\r' :: '\n' :: s =>
    placeFrom (index + 2) (line + 1) 0 (⟨'\n', index, line, column⟩ :: placed) s
  | c :: s =>
    let next := index + c.utf8Size
    let c := if c = '\r' || c = '\u0085' then '\n' else c
    if isBreakChar c then placeFrom next (line + 1) 0 (⟨c, index, line, column⟩ :: placed) s
    else placeFrom next line (column + 1) (⟨c, index, line, column⟩ :: placed) s

/-- The glyphs of a stream, the end mark last; none if a character may not occur. -/
def glyphs? (text : String) : Option (List Glyph) :=
  if text.toList.all isAllowed then some (placeFrom 0 0 0 [] text.toList) else none

/-- Whether the next glyph exists and has a property. -/
def nextIs (p : Glyph → Bool) : List Glyph → Bool
  | [] => false
  | g :: _ => p g

def nextIsChar (c : Char) (gs : List Glyph) : Bool := nextIs (·.char = c) gs

/-- A stream that has run out separates like its end mark. -/
def nextSeparates : List Glyph → Bool
  | [] => true
  | g :: _ => g.isSeparator

/-- `---` or `...` at the start of a line with a separator behind it. -/
def startsDocumentMark (c : Char) : List Glyph → Bool
  | g₁ :: g₂ :: g₃ :: gs =>
    g₁.column = 0 && g₁.char = c && g₂.char = c && g₃.char = c && nextSeparates gs
  | _ => false

def atDocumentMark (gs : List Glyph) : Bool := startsDocumentMark '-' gs || startsDocumentMark '.' gs

def chars (gs : List Glyph) : List Char := gs.map Glyph.char

end OpHeaders.Yaml
