import OpHeaders.Files.FilePath

/-! The arguments of the program: `generate ROOT [COMPONENT]` and `groups`, each with its
options. Options stand anywhere behind the command and at most once; only the one for more
messages may stand in front of it, and any number of times. -/
namespace OpHeaders.CommandLine

open Files (FilePath)

inductive Command where
  | generate (root : FilePath) (component : Option String) (config output : Option FilePath)
      (copiesBack isDry : Bool)
  | groups (config : Option FilePath)
deriving DecidableEq, Repr

inductive Request where
  | run (c : Command)
  | help
  | version
deriving DecidableEq, Repr

/-- What has been read behind the name of a command. -/
structure Given where
  root : Option FilePath := none
  component : Option String := none
  config : Option FilePath := none
  output : Option FilePath := none
  keepsCopies : Bool := false
  isDry : Bool := false

/-- The name of a command. -/
inductive Verb where
  | generate
  | groups
deriving DecidableEq, Repr

/-- An option that has no value. -/
inductive Flag where
  | help
  | verbose
  | noCopyBack
  | dryRun

/-- An option with a value. -/
inductive Setting where
  | config
  | output

def Verb.flag? (v : Verb) (name : String) : Option Flag :=
  match name with
  | "help" => some .help
  | "verbose" => some .verbose
  | "no-copy-back" => if v = .generate then some .noCopyBack else none
  | "dry-run" => if v = .generate then some .dryRun else none
  | _ => none

def Verb.setting? (v : Verb) (name : String) : Option Setting :=
  match name with
  | "config" => some .config
  | "out-dir" => if v = .generate then some .output else none
  | _ => none

/-- The shapes of an argument. -/
inductive Word where
  /-- All that follows is no option. -/
  | divider
  | long (name : String) (value : Option String)
  | short (letters : List Char)
  | operand (text : String)

def Word.ofText (s : String) : Word :=
  match s.toList with
  | ['-', '-'] => .divider
  | '-' :: '-' :: s =>
    let name := s.takeWhile (· ≠ '=')
    .long (String.ofList name)
      (if s.contains '=' then some (String.ofList (s.drop (name.length + 1))) else none)
  | '-' :: c :: s => .short (c :: s)
  | _ => .operand s

def Word.isOption : Word → Bool
  | .operand _ => false
  | _ => true

/-- The empty text is no path. -/
def path? (s : String) : Option FilePath := if s.isEmpty then none else some ⟨s⟩

namespace Given

/-- The first operand is the root and the second the component. -/
def addOperand? (g : Given) (v : Verb) (s : String) : Option Given :=
  if v = .groups then none
  else match g.root, g.component with
    | none, _ => (path? s).map fun p => { g with root := some p }
    | some _, none => some { g with component := some s }
    | some _, some _ => none

def addSetting? (g : Given) (s : Setting) (value : String) : Option Given := do
  let p ← path? value
  match s with
  | .config => if g.config.isSome then none else some { g with config := some p }
  | .output => if g.output.isSome then none else some { g with output := some p }

/-- The command of a verb, if nothing is missing. -/
def command? (g : Given) : Verb → Option Command
  | .generate => g.root.map fun root =>
    .generate root g.component g.config g.output (!g.keepsCopies) g.isDry
  | .groups => some (.groups g.config)

end Given

/-- A short option is one letter of several that may be written together. -/
inductive Letters where
  | quiet
  | help
  | version
  | unknown

/-- What the letters ask for; the first that is not for more messages decides. -/
def Letters.read : List Char → Letters
  | [] => .quiet
  | 'v' :: s => Letters.read s
  | 'h' :: _ => .help
  | 'V' :: _ => .version
  | _ => .unknown

/-- Reads on behind the name of a command; the first mistake refuses the arguments and the
wish for help ends them. -/
def behind (v : Verb) (g : Given) (operandsOnly : Bool) : List String → Option Request
  | [] => (g.command? v).map .run
  | w :: ws =>
    if operandsOnly then (g.addOperand? v w).bind fun g => behind v g true ws
    else match Word.ofText w with
      | .divider => behind v g true ws
      | .operand s => (g.addOperand? v s).bind fun g => behind v g false ws
      | .short letters => match Letters.read letters with
        | .quiet => behind v g false ws
        | .help => some .help
        | .version | .unknown => none
      | .long name value => match v.flag? name, value with
        | some .help, none => some .help
        | some .verbose, none => behind v g false ws
        | some .noCopyBack, none =>
          if g.keepsCopies then none else behind v { g with keepsCopies := true } false ws
        | some .dryRun, none =>
          if g.isDry then none else behind v { g with isDry := true } false ws
        | some _, some _ => none
        | none, value => (v.setting? name).bind fun s => match value, ws with
          | some value, ws => (g.addSetting? s value).bind fun g => behind v g false ws
          | none, next :: ws =>
            if (Word.ofText next).isOption then none
            else (g.addSetting? s next).bind fun g => behind v g false ws
          | none, [] => none

def verb? (s : String) : Option Verb :=
  match s with
  | "generate" => some .generate
  | "groups" => some .groups
  | _ => none

/-- Help may be asked for a command, or for itself. -/
def helpFor : List String → Option Request
  | [] => some .help
  | [s] => if (verb? s).isSome || s = "help" then some .help else none
  | _ => none

/-- The request that the arguments make; none if they are not understood. -/
def parse : List String → Option Request
  | [] => none
  | w :: ws => match Word.ofText w with
    | .divider => none
    | .short letters => match Letters.read letters with
      | .quiet => parse ws
      | .help => some .help
      | .version => some .version
      | .unknown => none
    | .long name none => match name with
      | "verbose" => parse ws
      | "help" => some .help
      | "version" => some .version
      | _ => none
    | .long _ (some _) => none
    | .operand s => match verb? s with
      | some v => behind v {} false ws
      | none => if s = "help" then helpFor ws else none

end OpHeaders.CommandLine
