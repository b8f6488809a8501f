import OpHeaders.CommandLine.Run

/-! The program on the file system. -/
namespace OpHeaders

open Files (FilePath Access Fault WriteFault)

/-- The fault behind an error number of the system, which may be negated. -/
def faultOfCode (code : UInt32) (text : String) : Fault :=
  match code.toInt32.toInt.natAbs with
  | 2 => .notFound
  | 16 => .busy
  | 17 => .exists
  | 20 => .notDirectory
  | 21 => .isDirectory
  | 36 => .nameTooLong
  | _ => .other text

def faultOf (e : IO.Error) : Fault :=
  match e with
  | .noFileOrDirectory _ code _ | .alreadyExists _ code _ | .inappropriateType _ code _
  | .invalidArgument _ code _ | .resourceBusy code _ => faultOfCode code (toString e)
  | _ => .other (toString e)

def attempt {α : Type} (action : IO α) : IO (Except Fault α) := do
  try return .ok (← action)
  catch e => return .error (faultOf e)

def readFile (p : FilePath) : IO (Except Fault String) := do
  if let some f := p.fault? then return .error f
  match ← attempt (IO.FS.readBinFile p.text) with
  | .error f => return .error f
  | .ok bytes => return match String.fromUTF8? bytes with
    | some s => .ok s
    | none => .error .notText

/-- Makes a directory and, if they are missing, those around it. -/
def makeDirectories (dir : FilePath) : IO (Except Fault Unit) := do
  match ← attempt (IO.FS.createDir dir.text) with
  | .error .notFound | .error .exists => attempt (IO.FS.createDirAll dir.text)
  | r => return r

/-- The file is written beside its place and then moved there. -/
def moveInto (dir p : FilePath) (text : String) : IO Unit := do
  let draft := dir.join ⟨".draft-" ++ toString (← IO.monoNanosNow)⟩
  try
    IO.FS.writeFile draft.text text
    IO.FS.rename draft.text p.text
  catch e =>
    try IO.FS.removeFile draft.text catch _ => pure ()
    throw e

def writeFile (p : FilePath) (text : String) : IO (Except WriteFault Unit) := do
  let dir := p.directory
  if let some f := dir.fault? then return .error ⟨dir, f⟩
  if let .error f ← makeDirectories dir then return .error ⟨dir, f⟩
  if let some f := p.fault? then return .error ⟨p, f⟩
  if let .error f ← attempt (moveInto dir p text) then return .error ⟨p, f⟩
  return .ok ()

def systemAccess : Access IO := ⟨readFile, writeFile⟩

/-- The program's own words where a library has others. -/
def wording : CommandLine.Wording where
  refusal _ := "not a YAML document"
  help _ :=
    "Compile YAML operator schemas into registration headers\n\n" ++
    "Usage: opdef-gen [-v] generate ROOT [COMPONENT] [--config FILE] [--out-dir DIR] " ++
    "[--no-copy-back] [--dry-run]\n" ++
    "       opdef-gen [-v] groups [--config FILE]\n"

end OpHeaders

def main (arguments : List String) : IO UInt32 := do
  let ending ← OpHeaders.CommandLine.run OpHeaders.wording OpHeaders.systemAccess arguments
  IO.print ending.output
  if let some message := ending.message then IO.eprintln ("Error: " ++ message)
  return ending.code.toUInt32
