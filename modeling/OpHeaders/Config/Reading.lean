import OpHeaders.Config.Basic
import OpHeaders.Yaml.Value.Expand

/-! Reading a configuration. Texts are taken as they are written, whatever they would
denote; fields that are not known are ignored; a field that is missing from the
configuration keeps its default, one that is missing from a group is an error. -/
namespace OpHeaders.Config

open Yaml (Document Node Expansion)
open Files (FilePath)

/-- A scalar as it is written. -/
def readText (d : Document) (n : Node) : Expansion String := do
  match ← d.follow n with
  | .scalar _ _ text => pure text
  | _ => failure

def readPath (d : Document) (n : Node) : Expansion FilePath := return ⟨← readText d n⟩

/-- A truth value is a plain scalar, or a literal one with the tag for it. -/
def readBool (d : Document) (n : Node) : Expansion Bool := do
  match ← d.follow n with
  | .scalar tag style text =>
    if style = .plain || (style = .literal && tag = some (Yaml.standardTag "bool")) then
      match Yaml.bool? text with
      | some b => pure b
      | none => failure
    else failure
  | _ => failure

/-- Whether nothing at all is written. -/
def isBlankNode : Node → Bool
  | .scalar _ style text => style = .plain && text.isEmpty
  | _ => false

/-- A sequence, or nothing for an empty list. -/
def readList {α : Type} (item : Node → Expansion α) (d : Document) (n : Node) : Expansion (List α) := do
  match ← d.follow n with
  | .sequence _ items => items.mapM item
  | n => if isBlankNode n then pure [] else failure

/-- The entries of a mapping whose keys are among the known ones, none of them twice;
nothing at all counts as a mapping without entries. -/
def readFields (known : List String) (d : Document) (n : Node) : Expansion (List (String × Node)) := do
  match ← d.follow n with
  | .mapping _ entries =>
    entries.foldlM (fun fields e => do
      let key ← readText d e.1
      if !known.contains key then pure fields
      else if (fields.lookup key).isSome then failure
      else pure ((key, e.2) :: fields)) []
  | n => if isBlankNode n then pure [] else failure

def required {α : Type} (fields : List (String × Node)) (name : String) (read : Node → Expansion α) :
    Expansion α :=
  match fields.lookup name with
  | some n => read n
  | none => failure

def optional {α : Type} (fields : List (String × Node)) (name : String) (default : α)
    (read : Node → Expansion α) : Expansion α :=
  match fields.lookup name with
  | some n => read n
  | none => pure default

def groupFields : List String := ["id", "source_dir", "macro_prefix", "dest_subdir", "schemas"]

def readGroup (d : Document) (n : Node) : Expansion SchemaGroup := do
  let fields ← readFields groupFields d n
  let id ← required fields "id" (readText d)
  let source ← required fields "source_dir" (readPath d)
  let guardStart ← required fields "macro_prefix" (readText d)
  let target ← required fields "dest_subdir" (readPath d)
  let schemas ← required fields "schemas" (readList (readText d) d)
  pure { id, source, guardStart, target, schemas }

def configFields : List String := ["schema_ext", "output_dir", "copy_back", "groups"]

def readConfig (d : Document) (n : Node) : Expansion Config := do
  let fields ← readFields configFields d n
  let base : Config := {}
  let extension ← optional fields "schema_ext" base.extension (readText d)
  let output ← optional fields "output_dir" base.output (readPath d)
  let copiesBack ← optional fields "copy_back" base.copiesBack (readBool d)
  let groups ← optional fields "groups" base.groups (readList (readGroup d) d)
  pure { extension, output, copiesBack, groups }

/-- The configuration of a document; an empty stream says nothing. -/
def ofDocument? (d : Document) : Option Config :=
  match d.root with
  | none => some {}
  | some n => ((readConfig d n).run 0).map Prod.fst

/-- The configuration that a text describes. -/
def ofText? (text : String) : Option Config := (Document.ofText? text).bind ofDocument?

end OpHeaders.Config
