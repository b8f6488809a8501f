import OpHeaders.Yaml.Scalar.Quoted
import OpHeaders.Yaml.Token

/-! Node properties: the names of anchors and aliases, and tags. A tag has a handle and a
suffix; the handle is empty for a verbatim tag and for the lone `!`. -/
namespace OpHeaders.Yaml

/-- A nonempty name with a separator or one of a few indicators behind it. -/
def readName (gs : List Glyph) : Option (String × List Glyph) :=
  let name := gs.takeWhile Glyph.isWord
  let rest := gs.dropWhile Glyph.isWord
  if !name.isEmpty && (nextSeparates rest || nextIs (fun g => "?:,]\x7d%@`".toList.contains g.char) rest)
  then some (String.ofList (chars name), rest) else none

def isUriChar (verbatim : Bool) (g : Glyph) : Bool :=
  g.isWord || ";/?:@&=+$.!~*'()".toList.contains g.char ||
    (verbatim && ",[]".toList.contains g.char)

/-- The length of a UTF-8 sequence by its first byte. -/
def utf8Length? (byte : Nat) : Option Nat :=
  if byte < 0x80 then some 1
  else if byte / 0x20 = 6 then some 2
  else if byte / 0x10 = 14 then some 3
  else if byte / 0x08 = 30 then some 4
  else none

/-- Reads characters of a URI behind `bytes`, which stand in reverse. A percent sign and
two hexadecimal digits are one byte; `missing` more bytes of a sequence have to follow. -/
def uriFrom (verbatim : Bool) (bytes : List UInt8) (missing : Nat) :
    List Glyph → Option (List UInt8 × List Glyph)
  | [] => if missing = 0 then some (bytes, []) else none
  | g :: gs =>
    if g.char = '%' then match gs with
      | h :: l :: gs => match hexDigit? h.char, hexDigit? l.char with
        | some h, some l =>
          let byte := 16 * h + l
          if missing = 0 then
            (utf8Length? byte).bind fun n => uriFrom verbatim (byte.toUInt8 :: bytes) (n - 1) gs
          else if byte / 0x40 = 2 then uriFrom verbatim (byte.toUInt8 :: bytes) (missing - 1) gs
          else none
        | _, _ => none
      | _ => none
    else if missing ≠ 0 then none
    else if isUriChar verbatim g then
      uriFrom verbatim (g.char.toNat.toUInt8 :: bytes) 0 gs
    else some (bytes, g :: gs)

/-- A run of URI characters that is nonempty unless `mayBeEmpty`. Nothing counts from an
escaped zero byte on. -/
def readUri (verbatim mayBeEmpty : Bool) (gs : List Glyph) : Option (Tag × List Glyph) := do
  let (bytes, rest) ← uriFrom verbatim [] 0 gs
  if bytes.isEmpty && !mayBeEmpty then none
  else pure (bytes.reverse.takeWhile (· ≠ 0), rest)

/-- A handle: `!`, a word, and a second `!`, which may be missing. -/
def readHandle : List Glyph → Option (String × List Glyph)
  | [] => none
  | g :: gs =>
    if g.char ≠ '!' then none
    else
      let word := gs.takeWhile Glyph.isWord
      let rest := gs.dropWhile Glyph.isWord
      if nextIsChar '!' rest then
        some (String.ofList ('!' :: chars word ++ ['!']), rest.drop 1)
      else some (String.ofList ('!' :: chars word), rest)

/-- A tag ends at a separator, in a flow collection also at a comma. -/
def endsTag (inFlow : Bool) (gs : List Glyph) : Bool :=
  nextSeparates gs || (inFlow && nextIsChar ',' gs)

/-- The handle and suffix of the tag at the start of a stream. -/
def readTag (inFlow : Bool) (gs : List Glyph) : Option ((String × Tag) × List Glyph) := do
  let (tag, rest) ←
    if nextIsChar '<' (gs.drop 1) then do
      let (suffix, rest) ← readUri true false (gs.drop 2)
      if nextIsChar '>' rest then some (("", suffix), rest.drop 1) else none
    else do
      let (handle, rest) ← readHandle gs
      if 2 ≤ handle.length && handle.endsWith "!" then do
        let (suffix, rest) ← readUri false false rest
        some ((handle, suffix), rest)
      else do
        let (uri, rest) ← readUri false true rest
        let suffix := (Tag.ofText handle).drop 1 ++ uri
        some (if suffix.isEmpty then ("", .ofText "!") else ("!", suffix), rest)
  if endsTag inFlow rest then some (tag, rest) else none

end OpHeaders.Yaml
