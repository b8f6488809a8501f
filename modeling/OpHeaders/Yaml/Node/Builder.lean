import OpHeaders.Yaml.Node
import OpHeaders.Yaml.Token.Lexer

/-! From tokens to the document. The open collections form a stack, so nesting costs no
recursion. Of every stream at most one document is accepted. -/
namespace OpHeaders.Yaml

/-- The properties of an open collection: the number of its anchor, and its tag. -/
structure Properties where
  anchor : Option Nat := none
  tag : Option Tag := none

/-- An open collection, and what is expected in it. The nodes that it has so far are
reversed. -/
inductive Frame where
  /-- After a dash of a sequence. -/
  | blockItem (p : Properties) (items : List Node)
  /-- At the next dash or the end of a sequence. -/
  | blockItems (p : Properties) (items : List Node)
  /-- After a dash of a sequence that has the indentation of the mapping around it. -/
  | flatItem (p : Properties) (items : List Node)
  | flatItems (p : Properties) (items : List Node)
  /-- After the key token of a block mapping. -/
  | blockKey (p : Properties) (entries : List (Node × Node))
  /-- At the next key or the end of a block mapping. -/
  | blockKeys (p : Properties) (entries : List (Node × Node))
  /-- Behind a key, at the colon. -/
  | blockColon (p : Properties) (entries : List (Node × Node)) (key : Node)
  | blockValue (p : Properties) (entries : List (Node × Node)) (key : Node)
  | flowItem (p : Properties) (items : List Node)
  /-- At the next item or the end of a flow sequence; `first` before any of them. -/
  | flowItems (p : Properties) (items : List Node) (first : Bool)
  /-- After the key token of an item that is a mapping of one entry. -/
  | pairKey (p : Properties) (items : List Node)
  | pairColon (p : Properties) (items : List Node) (key : Node)
  | pairValue (p : Properties) (items : List Node) (key : Node)
  | flowKey (p : Properties) (entries : List (Node × Node))
  /-- A node of a flow mapping without a key token, which is a key without a value. -/
  | flowLone (p : Properties) (entries : List (Node × Node))
  | flowKeys (p : Properties) (entries : List (Node × Node)) (first : Bool)
  | flowColon (p : Properties) (entries : List (Node × Node)) (key : Node)
  | flowValue (p : Properties) (entries : List (Node × Node)) (key : Node)

/-- The anchors so far. A name is bound to a slot, the number of the names known before;
a name that is bound again gets the slot of the next new name, so a later name can take
the slot over. `bound` has the anchor of each slot and `nodes` the finished nodes, the
latest first. -/
structure Anchors where
  slots : List (String × Nat) := []
  bound : List (Nat × Nat) := []
  nodes : List (Nat × Node) := []
  count : Nat := 0

def Anchors.bind (a : Anchors) (name : String) : Anchors :=
  let slot := a.slots.length
  { a with
    slots := (name, slot) :: a.slots.filter (·.1 ≠ name)
    bound := (slot, a.count) :: a.bound
    count := a.count + 1 }

def Anchors.finish (a : Anchors) (anchor : Option Nat) (n : Node) : Anchors :=
  match anchor with
  | some i => { a with nodes := (i, n) :: a.nodes }
  | none => a

def Anchors.table (a : Anchors) : List (Nat × Node) :=
  a.bound.filterMap fun b => (a.nodes.lookup b.2).map fun n => (b.1, n)

structure Builder where
  tokens : List Token
  frames : List Frame := []
  /-- The node of the document once it is complete. -/
  root : Option Node := none
  anchors : Anchors := {}
  size : Nat := 0
  /-- The meanings of the tag handles. -/
  handles : List (String × Tag) := []

namespace Builder

def skip (b : Builder) : Builder := { b with tokens := b.tokens.drop 1 }

def replace (b : Builder) (frames : List Frame) : Builder := { b with frames }

/-- Hands a complete node to the innermost open collection. -/
def deliver? (b : Builder) (n : Node) : Option Builder :=
  match b.frames with
  | [] => if b.root.isNone then some { b with root := some n } else none
  | .blockItem p ns :: fs => some (b.replace (.blockItems p (n :: ns) :: fs))
  | .flatItem p ns :: fs => some (b.replace (.flatItems p (n :: ns) :: fs))
  | .blockKey p es :: fs => some (b.replace (.blockColon p es n :: fs))
  | .blockValue p es k :: fs => some (b.replace (.blockKeys p ((k, n) :: es) :: fs))
  | .flowItem p ns :: fs => some (b.replace (.flowItems p (n :: ns) false :: fs))
  | .pairKey p ns :: fs => some (b.replace (.pairColon p ns n :: fs))
  | .pairValue p ns k :: fs => some (b.replace (.flowItems p (.mapping none [(k, n)] :: ns) false :: fs))
  | .flowKey p es :: fs => some (b.replace (.flowColon p es n :: fs))
  | .flowLone p es :: fs => some (b.replace (.flowKeys p ((n, .empty) :: es) false :: fs))
  | .flowValue p es k :: fs => some (b.replace (.flowKeys p ((k, n) :: es) false :: fs))
  | _ => none

def count (b : Builder) (n : Nat) : Builder := { b with size := b.size + n }

def deliverEmpty? (b : Builder) : Option Builder := (b.count 1).deliver? .empty

/-- Closes the innermost collection, which has become a node. -/
def finish? (b : Builder) (p : Properties) (n : Node) (fs : List Frame) : Option Builder :=
  { b with frames := fs, anchors := b.anchors.finish p.anchor n }.deliver? n

def finishSequence? (b : Builder) (p : Properties) (ns : List Node) (fs : List Frame) : Option Builder :=
  b.finish? p (.sequence p.tag ns.reverse) fs

def finishMapping? (b : Builder) (p : Properties) (es : List (Node × Node)) (fs : List Frame) :
    Option Builder :=
  b.finish? p (.mapping p.tag es.reverse) fs

/-! ### Nodes -/

/-- The tag that a handle and a suffix stand for. -/
def tag? (b : Builder) (handle : String) (suffix : Tag) : Option Tag :=
  if handle.isEmpty then some suffix else (b.handles.lookup handle).map (· ++ suffix)

def bind (b : Builder) (name : String) : Builder × Option Nat :=
  ({ b with anchors := b.anchors.bind name }, some b.anchors.count)

/-- At most one anchor and one tag, in either order. -/
def properties? (b : Builder) : Option (Builder × Properties) :=
  match b.tokens with
  | .anchor name :: .tag handle suffix :: ts => do
    let tag ← b.tag? handle suffix
    let (b, anchor) := { b with tokens := ts }.bind name
    pure (b, { anchor, tag := some tag })
  | .tag handle suffix :: .anchor name :: ts => do
    let tag ← b.tag? handle suffix
    let (b, anchor) := { b with tokens := ts }.bind name
    pure (b, { anchor, tag := some tag })
  | .anchor name :: ts =>
    let (b, anchor) := { b with tokens := ts }.bind name
    some (b, { anchor })
  | .tag handle suffix :: ts => do
    let tag ← b.tag? handle suffix
    pure ({ b with tokens := ts }, { tag := some tag })
  | _ => some (b, {})

def openWith (b : Builder) (f : Frame) : Builder :=
  (b.count 2).skip.replace (f :: b.frames)

/-- Reads a node. `block` allows block collections, and `flat` a sequence without an
indentation of its own. -/
def node? (b : Builder) (block flat : Bool) : Option Builder :=
  match b.tokens with
  | .alias name :: _ => (b.anchors.slots.lookup name).bind fun slot => (b.count 1).skip.deliver? (.alias slot)
  | _ => b.properties?.bind fun (b, p) =>
    match b.tokens with
    | .blockEntry :: _ =>
      if flat then some ((b.count 2).replace (.flatItems p [] :: b.frames))
      else emptyWith b p
    | .scalar style text :: _ =>
      (b.count 1).skip.finish? p (.scalar p.tag style text) b.frames
    | .flowSequence :: _ => some (b.openWith (.flowItems p [] true))
    | .flowMapping :: _ => some (b.openWith (.flowKeys p [] true))
    | .blockSequence :: _ => if block then some (b.openWith (.blockItems p [])) else emptyWith b p
    | .blockMapping :: _ => if block then some (b.openWith (.blockKeys p [])) else emptyWith b p
    | _ => emptyWith b p
where
  /-- An anchor or a tag alone makes an empty scalar. -/
  emptyWith (b : Builder) (p : Properties) : Option Builder :=
    if p.anchor.isNone && p.tag.isNone then none
    else (b.count 1).finish? p (.scalar p.tag .plain "") b.frames

/-! ### Collections -/

/-- Reads a node unless one of the tokens that may stand in its place comes first. -/
def nodeUnless? (b : Builder) (stops : List Token) (block flat : Bool) : Option Builder :=
  match b.tokens with
  | [] => none
  | t :: _ => if stops.contains t then b.deliverEmpty? else b.node? block flat

/-- Before an item of a flow collection: nothing before the first, a comma before the
others. -/
def comma? (b : Builder) (first : Bool) : Option Builder :=
  if first then some b
  else match b.tokens with
    | .flowEntry :: _ => some b.skip
    | _ => none

/-- One step in the innermost open collection. -/
def step? (b : Builder) : Option Builder :=
  match b.frames with
  | [] => b.node? true false
  | .blockItem _ _ :: _ => b.nodeUnless? [.blockEntry, .blockEnd] true false
  | .flatItem _ _ :: _ => b.nodeUnless? [.blockEntry, .key, .value, .blockEnd] true false
  | .blockKey _ _ :: _ => b.nodeUnless? [.key, .value, .blockEnd] true true
  | .blockValue _ _ _ :: _ => b.nodeUnless? [.key, .value, .blockEnd] true true
  | .flowItem _ _ :: _ => b.node? false false
  | .pairKey _ _ :: _ => match b.tokens with
    | .value :: _ | .flowEntry :: _ | .flowSequenceEnd :: _ => b.skip.deliverEmpty?
    | _ => b.node? false false
  | .pairValue _ _ _ :: _ => b.nodeUnless? [.flowEntry, .flowSequenceEnd] false false
  | .flowKey _ _ :: _ => b.nodeUnless? [.value, .flowEntry, .flowMappingEnd] false false
  | .flowLone _ _ :: _ => ((b.count 1).node? false false)
  | .flowValue _ _ _ :: _ => b.nodeUnless? [.flowEntry, .flowMappingEnd] false false
  | .blockItems p ns :: fs => match b.tokens with
    | .blockEntry :: _ => some (b.skip.replace (.blockItem p ns :: fs))
    | .blockEnd :: _ => b.skip.finishSequence? p ns fs
    | _ => none
  | .flatItems p ns :: fs => match b.tokens with
    | .blockEntry :: _ => some (b.skip.replace (.flatItem p ns :: fs))
    | _ => b.finishSequence? p ns fs
  | .blockKeys p es :: fs => match b.tokens with
    | .key :: _ => some (b.skip.replace (.blockKey p es :: fs))
    | .blockEnd :: _ => b.skip.finishMapping? p es fs
    | _ => none
  | .blockColon p es k :: fs => match b.tokens with
    | .value :: _ => some (b.skip.replace (.blockValue p es k :: fs))
    | _ => some ((b.count 1).replace (.blockKeys p ((k, .empty) :: es) :: fs))
  | .flowItems p ns first :: fs => match b.tokens with
    | .flowSequenceEnd :: _ => b.skip.finishSequence? p ns fs
    | _ => (b.comma? first).bind fun b => match b.tokens with
      | .key :: _ => some ((b.count 2).skip.replace (.pairKey p ns :: fs))
      | .flowSequenceEnd :: _ => b.skip.finishSequence? p ns fs
      | _ => some (b.replace (.flowItem p ns :: fs))
  | .pairColon p ns k :: fs => match b.tokens with
    | .value :: _ => some (b.skip.replace (.pairValue p ns k :: fs))
    | _ => some ((b.count 1).replace (.flowItems p (.mapping none [(k, .empty)] :: ns) false :: fs))
  | .flowKeys p es first :: fs => match b.tokens with
    | .flowMappingEnd :: _ => b.skip.finishMapping? p es fs
    | _ => (b.comma? first).bind fun b => match b.tokens with
      | .key :: _ => some (b.skip.replace (.flowKey p es :: fs))
      | .flowMappingEnd :: _ => b.skip.finishMapping? p es fs
      | _ => some (b.replace (.flowLone p es :: fs))
  | .flowColon p es k :: fs => match b.tokens with
    | .value :: _ => some (b.skip.replace (.flowValue p es k :: fs))
    | _ => some ((b.count 1).replace (.flowKeys p ((k, .empty) :: es) false :: fs))

/-- Steps until the root is complete. -/
def run : (steps : Nat) → Builder → Option Builder
  | 0, _ => none
  | n + 1, b => if b.root.isSome then some b else b.step?.bind (run n)

end Builder

/-! ### Documents -/

/-- The version and the tag handles that the directives of a document give, each at most
once, and the tokens behind them. -/
def directives? (version : Bool) (handles : List (String × Tag)) :
    List Token → Option (List (String × Tag) × List Token)
  | .version major minor :: ts =>
    if version || major ≠ 1 || (minor ≠ 1 && minor ≠ 2) then none else directives? true handles ts
  | .tagHandle handle stem :: ts =>
    if (handles.lookup handle).isSome then none
    else directives? version ((handle, stem) :: handles) ts
  | ts => some (handles, ts)

/-- Handles that no directive gives. -/
def defaultHandles : List (String × Tag) :=
  [("!", .ofText "!"), ("!!", .ofText "tag:yaml.org,2002:")]

/-- What may follow the only document of a stream. -/
def endsStream (ts : List Token) : Bool := ts.all (· == .documentEnd)

/-- The document that starts with these tokens. Every token is taken once, and between
two tokens at most three steps take none. -/
def buildDocument? (handles : List (String × Tag)) (ts : List Token) : Option Document := do
  let b ← Builder.run (4 * ts.length + 4) { tokens := ts, handles := handles ++ defaultHandles }
  if endsStream b.tokens then pure ⟨b.root, b.anchors.table, b.size⟩ else none

/-- The document of a token list. A document without a start mark is not empty; one with
a mark may be. -/
def Document.ofTokens? (ts : List Token) : Option Document := do
  if ts.isEmpty then pure ⟨none, [], 1⟩
  else
    let (handles, rest) ← directives? false [] ts
    match rest with
    | .documentStart :: rest =>
      match rest with
      | [] | .documentEnd :: _ => if endsStream rest then pure ⟨some .empty, [], 1⟩ else none
      | _ => buildDocument? handles rest
    | _ => if rest.length = ts.length then buildDocument? [] ts else none

/-- The document of a text. -/
def Document.ofText? (text : String) : Option Document := (tokens? text).bind Document.ofTokens?

end OpHeaders.Yaml
