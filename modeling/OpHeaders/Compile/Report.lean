import OpHeaders.Compile.Plan
import OpHeaders.Table

/-! Running the jobs of a configuration. A job that fails does not keep the others from
running; the report has an outcome for every job. -/
namespace OpHeaders.Compile

open Files (FilePath Access)

structure Outcome where
  group : String
  base : String
  result : Except JobError Generated

abbrev Report := List Outcome

section

variable {m : Type → Type} [Monad m]

def PlannedJob.run (files : Access m) (p : PlannedJob) : m Outcome := do
  return ⟨p.group, p.job.base, ← p.job.run files⟩

/-- Runs jobs one after another. -/
def runAll (files : Access m) (jobs : List PlannedJob) : m Report := jobs.mapM (PlannedJob.run files)

/-- Compiles one component, or all without one. -/
def compile (files : Access m) (c : Config) (root : FilePath) (isDry : Bool) (component : Option String) :
    m (Except UnknownGroup Report) := do
  match plan c root isDry component with
  | .error e => pure (.error e)
  | .ok jobs => return .ok (← runAll files jobs)

end

/-! ### Reports -/

def Outcome.isOk (o : Outcome) : Bool := o.result.isOk

def Outcome.name (o : Outcome) : String := o.group ++ "/" ++ o.base

/-- The names of the jobs that failed. -/
def Report.failed (r : Report) : List String :=
  (r.filter fun o => !o.isOk).map Outcome.name

def Report.isSuccess (r : Report) : Bool := r.all Outcome.isOk

/-- A row of the summary. -/
structure SummaryRow where
  group : String
  schema : String
  operators : Option Nat
  status : String
deriving DecidableEq, Repr

def Outcome.row (refusal : String → String) (o : Outcome) : SummaryRow :=
  match o.result with
  | .ok g => ⟨o.group, o.base, some g.operators, "ok"⟩
  | .error e => ⟨o.group, o.base, none, "failed: " ++ e.cause refusal⟩

/-- The cells of a row; a dash stands for a number of operators that is not known. -/
def SummaryRow.cells (r : SummaryRow) : List String :=
  [r.group, r.schema, r.operators.elim "-" toString, r.status]

def summaryTable (rows : List SummaryRow) : String :=
  Table.render ["Group", "Schema", "Ops", "Status"] (rows.map SummaryRow.cells)

def Report.summary (refusal : String → String) (r : Report) : String :=
  summaryTable (r.map (Outcome.row refusal))

/-- The table of the groups of a configuration. -/
def groupTable (groups : List SchemaGroup) : String :=
  Table.render ["Component", "Source", "Macro prefix", "Destination", "Schemas"]
    (groups.map fun g =>
      [g.id, g.source.text, g.guardStart, g.target.text, toString g.schemas.length])

end OpHeaders.Compile
