import OpHeaders.Files.Fault
import OpHeaders.Yaml.Number

/-! Why a text is no operator schema, and where. -/
namespace OpHeaders.Schema

/-- The kinds of entries that an operator has. -/
inductive EntryKind where
  | tensor
  | graph
  | attr
deriving DecidableEq, Repr

def EntryKind.word : EntryKind → String
  | .tensor => "tensor"
  | .graph => "graph"
  | .attr => "attr"

/-- A part of a schema: the document, an operator in it, or an entry of an operator. The
origin names the document. -/
inductive Place where
  | document (origin : String)
  | operator (origin name : String)
  | entry (origin owner : String) (kind : EntryKind) (name : String)
deriving DecidableEq, Repr

def ticked (s : String) : String := "`" ++ s ++ "`"

def operatorPlace (origin name : String) : String := origin ++ ": operator " ++ ticked name

def Place.text : Place → String
  | .document origin => origin
  | .operator origin name => operatorPlace origin name
  | .entry origin owner kind name =>
    operatorPlace origin owner ++ ", " ++ kind.word ++ " " ++ ticked name

/-- What should have been a text: a key of a mapping or the value of a field. -/
inductive Part where
  | key
  | field (name : String)
deriving DecidableEq, Repr

def Part.word : Part → String
  | .key => "mapping key"
  | .field name => name

inductive Offence where
  /-- The file cannot be read. -/
  | unreadable (fault : Files.Fault)
  /-- The text is not YAML, or no single document of it. -/
  | notYaml (text : String)
  | rootNotMapping
  | noCategory
  | categoryNotMapping (category : String)
  | operatorNotMapping
  /-- The inputs, outputs, graphs or attributes are no mapping. -/
  | entriesNotMapping (field : String)
  | entryNotMapping
  | missing (field : String)
  /-- Numbers are not kept as they are written, so they may not stand for texts. -/
  | number (part : Part) (n : Yaml.Number)
  | notScalar (part : Part)
  | notFlag (field : String)

/-- The offence in words. Those for a text that is not YAML are the YAML library's own. -/
def Offence.text (refusal : String → String) : Offence → String
  | .unreadable fault => "unreadable: " ++ fault.message
  | .notYaml text => refusal text
  | .rootNotMapping => "document root is not a mapping"
  | .noCategory => "document has no operator category"
  | .categoryNotMapping category => "category " ++ ticked category ++ " is not a mapping"
  | .operatorNotMapping => "operator body is not a mapping"
  | .entriesNotMapping field => ticked field ++ " is not a mapping"
  | .entryNotMapping => "entry is not a mapping"
  | .missing field => "missing " ++ ticked field
  | .number part n =>
    ticked part.word ++ " is the number " ++ n.text ++ "; quote it so the text is kept as written"
  | .notScalar part => ticked part.word ++ " is not a scalar"
  | .notFlag field => ticked field ++ " must be true or false"

/-- The first offence of a schema. -/
structure Malformed where
  place : Place
  offence : Offence

def Malformed.message (refusal : String → String) (e : Malformed) : String :=
  "malformed schema " ++ e.place.text ++ ": " ++ e.offence.text refusal

end OpHeaders.Schema
