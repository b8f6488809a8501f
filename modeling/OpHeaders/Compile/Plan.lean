import OpHeaders.Compile.Job
import OpHeaders.Config.Basic

/-! The jobs of a configuration: one for every schema of every selected group, in the
order of the table. -/
namespace OpHeaders.Compile

open Files (FilePath)

/-- A job and the group that it belongs to. -/
structure PlannedJob where
  group : String
  job : Job
deriving DecidableEq, Repr

/-- The job for a schema of a group, in a project at `root`. -/
def jobFor (c : Config) (root : FilePath) (isDry : Bool) (g : SchemaGroup) (base : String) : Job where
  schema := (root.join g.source).join ⟨base ++ "." ++ c.extension⟩
  base := base
  guardStart := g.guardStart
  output := (root.join c.output).join g.target
  copyTo := if c.copiesBack then some (root.join g.source) else none
  isDry := isDry

def groupJobs (c : Config) (root : FilePath) (isDry : Bool) (g : SchemaGroup) : List PlannedJob :=
  g.schemas.map fun base => ⟨g.id, jobFor c root isDry g base⟩

/-- The jobs for one component, or for all without one. -/
def plan (c : Config) (root : FilePath) (isDry : Bool) (component : Option String) :
    Except UnknownGroup (List PlannedJob) :=
  (c.select component).map fun gs => gs.flatMap (groupJobs c root isDry)

end OpHeaders.Compile
