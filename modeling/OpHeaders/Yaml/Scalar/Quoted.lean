import OpHeaders.Yaml.Scalar.Gap

/-! Quoted scalars. Between single quotes a doubled quote stands for one; between double
quotes a backslash starts an escape. Lines are joined as in plain scalars. -/
namespace OpHeaders.Yaml

/-- What a backslash and one more character stand for. -/
def simpleEscape? : Char → Option Char
  | '0' => some '\x00'
  | 'a' => some '\x07'
  | 'b' => some '\x08'
  | 't' => some '\t'
  | '\t' => some '\t'
  | 'n' => some '\n'
  | 'v' => some '\x0b'
  | 'f' => some '\x0c'
  | 'r' => some '\r'
  | 'e' => some '\x1b'
  | ' ' => some ' '
  | '"' => some '"'
  | '/' => some '/'
  | '\\' => some '\\'
  | 'N' => some '\u0085'
  | '_' => some '\u00a0'
  | 'L' => some '\u2028'
  | 'P' => some '\u2029'
  | _ => none

/-- The number of hexadecimal digits after a backslash and this character. -/
def escapeDigits? : Char → Option Nat
  | 'x' => some 2
  | 'u' => some 4
  | 'U' => some 8
  | _ => none

def hexDigit? (c : Char) : Option Nat :=
  if c.isDigit then some (c.toNat - '0'.toNat)
  else if 'a' ≤ c ∧ c ≤ 'f' then some (c.toNat - 'a'.toNat + 10)
  else if 'A' ≤ c ∧ c ≤ 'F' then some (c.toNat - 'A'.toNat + 10)
  else none

/-- The character of a code point, unless it is a surrogate or too large. -/
def charOfCode? (n : Nat) : Option Char := if n.isValidChar then some (Char.ofNat n) else none

/-- Where a reader stands inside a quoted scalar. -/
inductive QuotedPlace where
  | word
  | gap (gap : Gap)
  | escape
  | code (digits value : Nat)
  | secondQuote

/-- Reads on behind `text`, which stands in reverse, up to the closing quote. -/
def quotedFrom (double : Bool) (text : List Char) (place : QuotedPlace) :
    List Glyph → Option (String × List Glyph)
  | [] => none
  | g :: gs =>
    let inWord (text : List Char) (place : QuotedPlace) := quotedFrom double text place gs
    let wordStep (text : List Char) : Option (String × List Glyph) :=
      if double then
        if g.char = '"' then some (String.ofList text.reverse, gs)
        else if g.char = '\\' then inWord text .escape
        else inWord (g.char :: text) .word
      else if g.char = '\'' then
        if nextIsChar '\'' gs then inWord text .secondQuote
        else some (String.ofList text.reverse, gs)
      else inWord (g.char :: text) .word
    if g.isEnd then none else match place with
    | .word =>
      if g.isBlank then inWord text (.gap (Gap.addBlank {} g.char))
      else if g.isBreak then inWord text (.gap (Gap.addBreak {} g.char))
      else wordStep text
    | .gap gap =>
      if g.isBlank then inWord text (.gap (gap.addBlank g.char))
      else if g.isBreak then inWord text (.gap (gap.addBreak g.char))
      else if atDocumentMark (g :: gs) then none
      else wordStep (gap.folded ++ text)
    | .escape =>
      if g.isBreak then inWord text (.gap { broken := true })
      else match escapeDigits? g.char with
        | some n => inWord text (.code n 0)
        | none => (simpleEscape? g.char).bind fun c => inWord (c :: text) .word
    | .code digits value => (hexDigit? g.char).bind fun d =>
      let value := 16 * value + d
      if digits = 1 then (charOfCode? value).bind fun c => inWord (c :: text) .word
      else inWord text (.code (digits - 1) value)
    | .secondQuote => inWord ('\'' :: text) .word

/-- The text of a quoted scalar behind its opening quote, and the glyphs behind it. -/
def readQuoted (double : Bool) (gs : List Glyph) : Option (String × List Glyph) :=
  quotedFrom double [] .word gs

end OpHeaders.Yaml
