import OpHeaders.Config.Reading
import OpHeaders.Files.Access

/-! Loading a configuration from a text or from a file. -/
namespace OpHeaders

open Files (FilePath Access)

inductive ConfigError where
  | invalid
  | invalidFile (path : FilePath)
  | unreadable (path : FilePath)
deriving DecidableEq, Repr

/-- What went wrong, the general before the particular. -/
def ConfigError.contexts : ConfigError → List String
  | .invalid => ["invalid compiler config"]
  | .invalidFile path => ["in " ++ path.text, "invalid compiler config"]
  | .unreadable path => ["failed to read config " ++ path.text]

def ConfigError.message (e : ConfigError) : String := e.contexts.headD ""

namespace Config

def ofText (text : String) : Except ConfigError Config :=
  match ofText? text with
  | some c => .ok c
  | none => .error .invalid

def ofFile {m : Type → Type} [Monad m] (files : Access m) (path : FilePath) :
    m (Except ConfigError Config) := do
  match ← files.read path with
  | .error _ => pure (.error (.unreadable path))
  | .ok text => match ofText? text with
    | some c => pure (.ok c)
    | none => pure (.error (.invalidFile path))

end Config

end OpHeaders
