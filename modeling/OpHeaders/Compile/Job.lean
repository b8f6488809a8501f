import OpHeaders.Files.Access
import OpHeaders.Header.Text
import OpHeaders.Schema.Loading

/-! Compiling one schema file: its catalog is loaded, and its header is written and, if
wanted, copied. Nothing is written unless the catalog loads. -/
namespace OpHeaders.Compile

open Files (FilePath Access WriteFault)
open Schema (Catalog Malformed)

/-- One schema file and where its header goes. -/
structure Job where
  schema : FilePath
  /-- The name of the header without its extension. -/
  base : String
  guardStart : String
  output : FilePath
  /-- The directory for a copy of the header. -/
  copyTo : Option FilePath := none
  /-- Whether only to pretend to write. -/
  isDry : Bool := false
deriving DecidableEq, Repr

inductive LoadError where
  | notFound (path : FilePath)
  | malformed (e : Malformed)

def LoadError.message (refusal : String → String) : LoadError → String
  | .notFound path => "schema file not found: " ++ path.text
  | .malformed e => e.message refusal

inductive JobError where
  | loading (schema : FilePath) (e : LoadError)
  | writing (base : String) (e : WriteFault)
  | copying (copy : FilePath) (e : WriteFault)

/-- What was being done. -/
def JobError.context : JobError → String
  | .loading schema _ => "failed to load schema " ++ schema.text
  | .writing base _ => "failed to write header for " ++ base
  | .copying copy _ => "failed to copy header back to " ++ copy.text

/-- Why it failed. -/
def JobError.cause (refusal : String → String) : JobError → String
  | .loading _ e => e.message refusal
  | .writing _ e | .copying _ e => e.fault.message

/-- A header that was made. -/
structure Generated where
  header : FilePath
  copy : Option FilePath
  category : String
  operators : Nat
  /-- The length of the header in UTF-8. -/
  bytes : Nat
deriving DecidableEq, Repr

namespace Job

def fileName (j : Job) : FilePath := ⟨j.base ++ ".h"⟩

def headerPath (j : Job) : FilePath := j.output.join j.fileName

def copyPath (j : Job) : Option FilePath := j.copyTo.map (·.join j.fileName)

def headerText (j : Job) (c : Catalog) : String := Header.headerText c j.guardStart j.base

def generated (j : Job) (c : Catalog) : Generated where
  header := j.headerPath
  copy := j.copyPath
  category := c.category
  operators := c.operators.length
  bytes := (j.headerText c).utf8ByteSize

variable {m : Type → Type} [Monad m]

/-- The catalog of a schema file, which is named by its path. -/
def loadCatalog (files : Access m) (path : FilePath) : m (Except LoadError Catalog) := do
  match ← files.read path with
  | .ok text => match Catalog.ofText path.text text with
    | .ok c => pure (.ok c)
    | .error e => pure (.error (.malformed e))
  | .error .notFound => pure (.error (.notFound path))
  | .error fault => pure (.error (.malformed ⟨.document path.text, .unreadable fault⟩))

/-- Writes the copy of a header that is written already. -/
def writeCopy (files : Access m) (j : Job) (c : Catalog) : m (Except JobError Generated) := do
  match j.copyPath with
  | none => pure (.ok (j.generated c))
  | some copy => match ← files.write copy (j.headerText c) with
    | .ok () => pure (.ok (j.generated c))
    | .error e => pure (.error (.copying copy e))

/-- Writes the header and its copy. -/
def writeHeader (files : Access m) (j : Job) (c : Catalog) : m (Except JobError Generated) := do
  match ← files.write j.headerPath (j.headerText c) with
  | .ok () => j.writeCopy files c
  | .error e => pure (.error (.writing j.base e))

def run (files : Access m) (j : Job) : m (Except JobError Generated) := do
  match ← loadCatalog files j.schema with
  | .error e => pure (.error (.loading j.schema e))
  | .ok c => if j.isDry then pure (.ok (j.generated c)) else j.writeHeader files c

end Job

end OpHeaders.Compile
