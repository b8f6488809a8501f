import OpHeaders.Yaml.Number

/-! The values that YAML documents denote. Keys of a mapping are values of any kind, and
its entries keep their order. -/
namespace OpHeaders.Yaml

inductive Value where
  | null
  | bool (b : Bool)
  | number (n : Number)
  | string (s : String)
  | sequence (items : List Value)
  | mapping (entries : List (Value × Value))
  | tagged (tag : String) (value : Value)
deriving Inhabited

/-- A tag counts without one exclamation mark at its start, unless that is all of it. -/
def bareTag (tag : String) : List Char :=
  match tag.toList with
  | '!' :: c :: s => c :: s
  | s => s

namespace Value

mutual

/-- Whether two values are the same key. Mappings are compared without regard to order. -/
def same : Value → Value → Bool
  | .null, .null => true
  | .bool a, .bool b => a == b
  | .number a, .number b => a.same b
  | .string a, .string b => a == b
  | .sequence xs, .sequence ys => sameItems xs ys
  | .mapping xs, .mapping ys => xs.length == ys.length && areEntriesOf xs ys
  | .tagged s a, .tagged t b => bareTag s == bareTag t && same a b
  | _, _ => false

def sameItems : List Value → List Value → Bool
  | [], [] => true
  | x :: xs, y :: ys => same x y && sameItems xs ys
  | _, _ => false

def areEntriesOf : List (Value × Value) → List (Value × Value) → Bool
  | [], _ => true
  | (k, v) :: xs, ys => ys.any (fun y => same k y.1 && same v y.2) && areEntriesOf xs ys

end

/-- Whether no key stands twice. -/
def distinctKeys : List (Value × Value) → Bool
  | [] => true
  | e :: es => es.all (fun f => !same e.1 f.1) && distinctKeys es

/-- The entries of a mapping under any number of tags. -/
def entries? : Value → Option (List (Value × Value))
  | .mapping es => some es
  | .tagged _ v => v.entries?
  | _ => none

/-- The value under a key that is an untagged string. -/
def field? (name : String) (es : List (Value × Value)) : Option Value :=
  (es.find? fun e => match e.1 with | .string s => s == name | _ => false).map Prod.snd

end Value

end OpHeaders.Yaml
