import OpHeaders.Yaml.Directive
import OpHeaders.Yaml.Scalar.Plain

/-! From the glyphs of a stream to its tokens. A mapping key need not be announced: what
may turn out to be one is kept in mind as a candidate, and a colon behind it puts the key
token, and if need be the start of a block mapping, in front of it after the fact. -/
namespace OpHeaders.Yaml

/-- Something that is a mapping key if a colon follows on the same line and within 1024
bytes. At the indentation of a block mapping it has to be one. -/
structure Candidate where
  required : Bool
  /-- The number of tokens before the candidate. -/
  token : Nat
  index : Nat
  line : Nat
  column : Nat

/-- The state between two tokens. `flowDepth` counts the open flow collections and
`candidates` holds one place for each of them and one for the block level, the innermost
first. Indentations are those of the open block collections; -1 is outside of all. -/
structure Lexer where
  rest : List Glyph
  tokens : Array Token := #[]
  flowDepth : Nat := 0
  indent : Int := -1
  outerIndents : List Int := []
  keyAllowed : Bool := true
  candidates : List (Option Candidate) := [none]

namespace Lexer

def inFlow (l : Lexer) : Bool := l.flowDepth != 0

def push (l : Lexer) (t : Token) : Lexer := { l with tokens := l.tokens.push t }

def drop (l : Lexer) (n : Nat) : Lexer := { l with rest := l.rest.drop n }

def allowKey (l : Lexer) (allowed : Bool) : Lexer := { l with keyAllowed := allowed }

/-! ### Blanks, comments and line breaks -/

/-- Skips to the next token. A tab may not stand where a key could begin, a mark of byte
order may start a line, and outside of flow collections a key may begin after a line
break. The result tells whether a key is allowed. -/
def skipFrom (inFlow keyAllowed inComment : Bool) : List Glyph → Bool × List Glyph
  | [] => (keyAllowed, [])
  | g :: gs =>
    if g.isBreak then skipFrom inFlow (keyAllowed || !inFlow) false gs
    else if inComment && !g.isEnd then skipFrom inFlow keyAllowed true gs
    else if g.char = ' ' || (g.isTab && (inFlow || !keyAllowed)) || (g.column = 0 && g.char = '\ufeff')
    then skipFrom inFlow keyAllowed false gs
    else if g.char = '#' then skipFrom inFlow keyAllowed true gs
    else (keyAllowed, g :: gs)

def skipToToken (l : Lexer) : Lexer :=
  let (keyAllowed, rest) := skipFrom l.inFlow l.keyAllowed false l.rest
  { l with keyAllowed, rest }

/-! ### Indentation -/

/-- Closes the block collections that are indented by more than `column`. -/
def closeFrom (tokens : Array Token) (indent : Int) (column : Int) : List Int → Array Token × Int × List Int
  | [] => (tokens, indent, [])
  | outer :: rest =>
    if column < indent then closeFrom (tokens.push .blockEnd) outer column rest
    else (tokens, indent, outer :: rest)

def close (l : Lexer) (column : Int) : Lexer :=
  if l.inFlow then l
  else
    let (tokens, indent, outerIndents) := closeFrom l.tokens l.indent column l.outerIndents
    { l with tokens, indent, outerIndents }

/-- Opens a block collection with its token in front of the token number `place`, unless
one is open at that column already. -/
def openAt (l : Lexer) (column place : Nat) (t : Token) : Lexer :=
  if l.inFlow || (column : Int) ≤ l.indent then l
  else { l with
    tokens := l.tokens.insertIdxIfInBounds place t
    indent := column
    outerIndents := l.indent :: l.outerIndents }

def openHere (l : Lexer) (column : Nat) (t : Token) : Lexer := l.openAt column l.tokens.size t

/-! ### Candidates for keys -/

/-- A required candidate that is no key after all refuses the stream. -/
def dropCandidate? (l : Lexer) : Option Lexer :=
  match l.candidates with
  | some c :: outer => if c.required then none else some { l with candidates := none :: outer }
  | _ => some l

def candidateIsStale (g : Glyph) (c : Candidate) : Bool := c.line < g.line || c.index + 1024 < g.index

/-- Forgets the candidates that are too far before the glyph `g`. -/
def dropStale? (l : Lexer) (g : Glyph) : Option Lexer :=
  if l.candidates.any fun c => c.any fun c => candidateIsStale g c && c.required then none
  else some { l with candidates := l.candidates.map (·.filter (!candidateIsStale g ·)) }

/-- What begins at the glyph `g` may be a key. -/
def addCandidate? (l : Lexer) (g : Glyph) : Option Lexer :=
  if l.keyAllowed then do
    let l ← l.dropCandidate?
    let candidate : Candidate :=
      { required := !l.inFlow && l.indent == (g.column : Int)
        token := l.tokens.size, index := g.index, line := g.line, column := g.column }
    pure { l with candidates := some candidate :: l.candidates.drop 1 }
  else some l

/-! ### Tokens -/

/-- A collection in braces or brackets may be a key, and keys may begin in it. -/
def openFlow? (l : Lexer) (g : Glyph) (t : Token) : Option Lexer := do
  let l ← l.addCandidate? g
  pure (({ l with flowDepth := l.flowDepth + 1, candidates := none :: l.candidates }.allowKey true).drop 1
    |>.push t)

def closeFlow? (l : Lexer) (t : Token) : Option Lexer := do
  let l ← l.dropCandidate?
  let l := if l.inFlow then { l with flowDepth := l.flowDepth - 1, candidates := l.candidates.drop 1 } else l
  pure (((l.allowKey false).drop 1).push t)

def flowEntry? (l : Lexer) : Option Lexer := do
  let l ← l.dropCandidate?
  pure (((l.allowKey true).drop 1).push .flowEntry)

def blockEntry? (l : Lexer) (g : Glyph) : Option Lexer :=
  if !l.inFlow && !l.keyAllowed then none
  else do
    let l ← (l.openHere g.column .blockSequence).dropCandidate?
    pure (((l.allowKey true).drop 1).push .blockEntry)

/-- An announced key, which may be of any length. -/
def key? (l : Lexer) (g : Glyph) : Option Lexer :=
  if !l.inFlow && !l.keyAllowed then none
  else do
    let l ← (l.openHere g.column .blockMapping).dropCandidate?
    pure (((l.allowKey !l.inFlow).drop 1).push .key)

/-- A colon makes the innermost candidate a key; without one it belongs to an announced
key. -/
def value? (l : Lexer) (g : Glyph) : Option Lexer :=
  match l.candidates with
  | some c :: outer =>
    let l := { l with tokens := l.tokens.insertIdxIfInBounds c.token .key, candidates := none :: outer }
    let l := l.openAt c.column c.token .blockMapping
    some (((l.allowKey false).drop 1).push .value)
  | _ =>
    if !l.inFlow && !l.keyAllowed then none
    else some ((((l.openHere g.column .blockMapping).allowKey !l.inFlow).drop 1).push .value)

/-- A document mark or a directive ends all block collections. -/
def endBlocks? (l : Lexer) : Option Lexer := do
  let l ← (l.close (-1)).dropCandidate?
  pure (l.allowKey false)

def directive? (l : Lexer) : Option Lexer := do
  let l ← l.endBlocks?
  let (t, rest) ← readDirective (l.rest.drop 1)
  pure ({ l with rest }.push t)

def documentMark? (l : Lexer) (t : Token) : Option Lexer := do
  let l ← l.endBlocks?
  pure ((l.drop 3).push t)

/-- An alias, an anchor, a tag or a scalar on one line: something that may be a key and
behind which no key may begin. -/
def word? (l : Lexer) (g : Glyph) (read : List Glyph → Option (Token × List Glyph)) : Option Lexer := do
  let l ← l.addCandidate? g
  let (t, rest) ← read l.rest
  pure (({ l with rest }.allowKey false).push t)

def named? (token : String → Token) (gs : List Glyph) : Option (Token × List Glyph) :=
  (readName (gs.drop 1)).map fun r => (token r.1, r.2)

def tagged? (inFlow : Bool) (gs : List Glyph) : Option (Token × List Glyph) :=
  (readTag inFlow gs).map fun r => (.tag r.1.1 r.1.2, r.2)

def quoted? (double : Bool) (gs : List Glyph) : Option (Token × List Glyph) :=
  (readQuoted double (gs.drop 1)).map fun r => (.scalar .quoted r.1, r.2)

def block? (l : Lexer) (literal : Bool) : Option Lexer := do
  let l ← l.dropCandidate?
  let (text, rest) ← readBlock literal l.indent (l.rest.drop 1)
  pure (({ l with rest }.allowKey true).push (.scalar (if literal then .literal else .folded) text))

/-- Behind a plain scalar a key may begin if a line break follows it. -/
def plain? (l : Lexer) (g : Glyph) : Option Lexer := do
  let l ← l.addCandidate? g
  let scalar ← readPlain l.inFlow (l.indent + 1).toNat l.rest
  pure (({ l with rest := scalar.rest }.allowKey scalar.broken).push (.scalar .plain scalar.text))

/-- Whether a plain scalar begins with the glyph `g`, which is no separator. -/
def beginsPlain (inFlow : Bool) (g : Glyph) (gs : List Glyph) : Bool :=
  if g.char = '-' then !nextIs Glyph.isBlank gs
  else if g.char = '?' || g.char = ':' then !inFlow && !nextSeparates gs
  else !",[]\x7b\x7d#&*!|>'\"%@`".toList.contains g.char

/-- Reads the token at the glyph `g`, which is not the end mark; `gs` are the glyphs
behind it. -/
def token? (l : Lexer) (g : Glyph) (gs : List Glyph) : Option Lexer :=
  if g.column = 0 && g.char = '%' then l.directive?
  else if startsDocumentMark '-' l.rest then l.documentMark? .documentStart
  else if startsDocumentMark '.' l.rest then l.documentMark? .documentEnd
  else match g.char with
    | '[' => l.openFlow? g .flowSequence
    | '\x7b' => l.openFlow? g .flowMapping
    | ']' => l.closeFlow? .flowSequenceEnd
    | '\x7d' => l.closeFlow? .flowMappingEnd
    | ',' => l.flowEntry?
    | '*' => l.word? g (named? .alias)
    | '&' => l.word? g (named? .anchor)
    | '!' => l.word? g (tagged? l.inFlow)
    | '\'' => l.word? g (quoted? false)
    | '"' => l.word? g (quoted? true)
    | c =>
      if c = '-' && nextSeparates gs then l.blockEntry? g
      else if c = '?' && (l.inFlow || nextSeparates gs) then l.key? g
      else if c = ':' && (l.inFlow || nextSeparates gs) then l.value? g
      else if (c = '|' || c = '>') && !l.inFlow then l.block? (c = '|')
      else if !g.isSeparator && beginsPlain l.inFlow g gs then l.plain? g
      else none

/-- Reads tokens to the end of the stream. Every token takes a glyph, so as many steps as
there are glyphs suffice. -/
def run : (steps : Nat) → Lexer → Option (Array Token)
  | 0, _ => none
  | n + 1, l =>
    let l := l.skipToToken
    match l.rest with
    | [] => none
    | g :: gs => do
      let l := (← l.dropStale? g).close g.column
      if g.isEnd then
        let l ← (l.close (-1)).dropCandidate?
        pure l.tokens
      else run n (← l.token? g gs)

end Lexer

/-- The tokens of a text. -/
def tokens? (text : String) : Option (List Token) := do
  let gs ← glyphs? text
  let tokens ← Lexer.run (gs.length + 1) { rest := gs }
  pure tokens.toList

end OpHeaders.Yaml
