import OpHeaders.Yaml.Property
import OpHeaders.Yaml.Scalar.Block
import OpHeaders.Yaml.Token

/-! Directives: the version of YAML and the meaning of a tag handle. Any other directive
is refused. -/
namespace OpHeaders.Yaml

/-- A number of at most nine digits. -/
def readVersionNumber (gs : List Glyph) : Option (Nat × List Glyph) :=
  let digits := chars (gs.takeWhile (·.char.isDigit))
  if digits.isEmpty || 9 < digits.length then none
  else some (digits.foldl (fun n c => 10 * n + (c.toNat - '0'.toNat)) 0,
    gs.dropWhile (·.char.isDigit))

def readVersion (gs : List Glyph) : Option (Token × List Glyph) := do
  let (major, gs) ← readVersionNumber (gs.dropWhile Glyph.isBlank)
  if !nextIsChar '.' gs then none
  else
    let (minor, gs) ← readVersionNumber (gs.drop 1)
    pure (.version major minor, gs)

/-- A handle needs both of its exclamation marks unless it is the lone one. -/
def readTagHandle (gs : List Glyph) : Option (Token × List Glyph) := do
  let (handle, gs) ← readHandle (gs.dropWhile Glyph.isBlank)
  if !(handle = "!" || handle.endsWith "!") || !nextIs Glyph.isBlank gs then none
  else
    let (stem, gs) ← readUri true false (gs.dropWhile Glyph.isBlank)
    if nextSeparates gs then pure (.tagHandle handle stem, gs) else none

/-- The directive behind a percent sign, with the end of its line. -/
def readDirective (gs : List Glyph) : Option (Token × List Glyph) := do
  let name := String.ofList (chars (gs.takeWhile Glyph.isWord))
  let gs := gs.dropWhile Glyph.isWord
  if !nextSeparates gs then none
  else
    let (token, gs) ←
      if name = "YAML" then readVersion gs
      else if name = "TAG" then readTagHandle gs
      else none
    let gs ← skipLineEnd gs
    pure (token, gs)

end OpHeaders.Yaml
