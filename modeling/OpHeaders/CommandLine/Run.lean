import OpHeaders.CommandLine.Arguments
import OpHeaders.Compile.Report
import OpHeaders.Config.Loading

/-! What the program does with its arguments. -/
namespace OpHeaders.CommandLine

open Files (FilePath Access)

/-- The end of a run: its exit code, what it printed, and its error message. -/
structure Ending where
  code : Nat
  output : String := ""
  message : Option String := none
deriving DecidableEq, Repr

def versionText : String := "opdef-gen 0.1.0\n"

/-- What is said by the libraries and not by the program. -/
structure Wording where
  /-- Why a text is not YAML. -/
  refusal : String → String
  /-- The help for arguments that ask for it. -/
  help : List String → String

def failure (message : String) : Ending := { code := 1, message := some message }

section

variable {m : Type → Type} [Monad m]

/-- The configuration in a file, or the default without one. -/
def loadConfig (files : Access m) : Option FilePath → m (Except ConfigError Config)
  | some path => Config.ofFile files path
  | none => pure (.ok {})

/-- The configuration with what the options say. -/
def adjusted (c : Config) (output : Option FilePath) (copiesBack : Bool) : Config :=
  { c with output := output.getD c.output, copiesBack := c.copiesBack && copiesBack }

/-- The summary is printed even if jobs failed; then the failures are named. -/
def reportEnding (refusal : String → String) (r : Compile.Report) : Ending :=
  let output := "\n" ++ r.summary refusal ++ "\n"
  match r.failed with
  | [] => { code := 0, output }
  | names =>
    { code := 1, output
      message := some (toString names.length ++ " schema file(s) failed: " ++ ", ".intercalate names) }

def runCommand (refusal : String → String) (files : Access m) : Command → m Ending
  | .generate root component config output copiesBack isDry => do
    match ← loadConfig files config with
    | .error e => pure (failure e.message)
    | .ok c => match ← Compile.compile files (adjusted c output copiesBack) root isDry component with
      | .error e => pure (failure e.message)
      | .ok report => pure (reportEnding refusal report)
  | .groups config => do
    match ← loadConfig files config with
    | .error e => pure (failure e.message)
    | .ok c => pure { code := 0, output := Compile.groupTable c.groups ++ "\n" }

/-- Runs the program. Arguments that are not understood are answered by the code two. -/
def run (wording : Wording) (files : Access m) (arguments : List String) : m Ending :=
  match parse arguments with
  | none => pure { code := 2 }
  | some .help => pure { code := 0, output := wording.help arguments }
  | some .version => pure { code := 0, output := versionText }
  | some (.run c) => runCommand wording.refusal files c

end

end OpHeaders.CommandLine
