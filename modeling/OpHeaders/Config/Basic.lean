import OpHeaders.Files.FilePath

/-! Which schema files are compiled, and where their headers go. The files come in groups
that share a directory and the start of their guard macros. -/
namespace OpHeaders

open Files (FilePath)

structure SchemaGroup where
  id : String
  /-- The directory of the schemas, from the root of the project. -/
  source : FilePath
  /-- What the guard macros of the headers start with. -/
  guardStart : String
  /-- The directory of the headers, from the output directory. -/
  target : FilePath
  schemas : List String
deriving DecidableEq, Repr

/-- A group that is asked for and is not among the known ones. -/
structure UnknownGroup where
  id : String
  known : List String
deriving DecidableEq, Repr

def UnknownGroup.message (e : UnknownGroup) : String :=
  "unknown component `" ++ e.id ++ "` (known: " ++ ", ".intercalate e.known ++ ")"

def defaultGroups : List SchemaGroup := [
  { id := "api", source := ⟨"api/framework/graph/op"⟩, guardStart := "inc_api_graph_op_"
    target := ⟨"graph/op"⟩
    schemas := ["array_defs", "const_defs", "control_flow_defs", "detection_defs", "image_defs",
      "math_defs", "nn_defs", "random_defs"] },
  { id := "inc", source := ⟨"inc/framework/graph/op"⟩, guardStart := "inc_framework_graph_op_"
    target := ⟨"framework/graph/op"⟩
    schemas := ["data_flow_defs", "internal_defs", "internal_nn_defs"] }]

structure Config where
  /-- The extension of schema files. -/
  extension : String := "yaml"
  /-- The directory of all headers, from the root of the project. -/
  output : FilePath := ⟨"out/opDefs"⟩
  /-- Whether every header is also put beside its schema. -/
  copiesBack : Bool := true
  groups : List SchemaGroup := defaultGroups
deriving DecidableEq, Repr

namespace Config

/-- The first group with an identifier. -/
def group? (c : Config) (id : String) : Option SchemaGroup := c.groups.find? (·.id == id)

/-- The group with an identifier, or all groups in order without one. -/
def select (c : Config) : Option String → Except UnknownGroup (List SchemaGroup)
  | none => .ok c.groups
  | some id => match c.group? id with
    | some g => .ok [g]
    | none => .error ⟨id, c.groups.map SchemaGroup.id⟩

end Config

end OpHeaders
