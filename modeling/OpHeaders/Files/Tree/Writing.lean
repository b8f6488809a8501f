import OpHeaders.Files.Tree.Reading

/-! Writing a file at once: first the directories on the way are made, then the file
appears with its whole content or not at all. What was made on the way stays even if the
file cannot be written. -/
namespace OpHeaders.Files

/-- A write that failed: the path that could not be made, and why. -/
structure WriteFault where
  path : FilePath
  fault : Fault
deriving DecidableEq, Repr

namespace Tree

/-- Makes the directories that are missing along names from a location. A file in the way
is not a directory to go through; if it is the last, or if the directory before it is
`fresh` ground, it is found to exist instead. -/
def makeAlong (t : Tree) (fresh : Bool) (here : Location) : List String → Except Fault Unit × Tree
  | [] => (.ok (), t)
  | n :: ns =>
    if n = "." then t.makeAlong fresh here ns
    else if n = ".." then t.makeAlong fresh here.tail ns
    else if FilePath.isTooLong n then (.error .nameTooLong, t)
    else match t.find? (n :: here) with
      | some .directory => t.makeAlong fresh (n :: here) ns
      | some (.file _) => (.error (if ns.isEmpty || fresh then .exists else .notDirectory), t)
      | none =>
        if h : t.IsDirectory here then (t.addDirectory n here h).makeAlong true (n :: here) ns
        else (.error .notDirectory, t)

/-- Makes a directory and those around it, as far as they are missing. -/
def makeDirectories (t : Tree) (p : FilePath) : Except Fault Unit × Tree :=
  match p.fault? with
  | some f => (.error f, t)
  | none => t.makeAlong false [] p.names

/-- Puts a file under a name into a directory. A file there is replaced, a directory is
not. -/
def placeIn (t : Tree) (dir : Location) (n : String) (content : ByteArray) : Except Fault Tree :=
  if h : t.IsDirectory dir then
    if hn : t.IsDirectory (n :: dir) then .error .isDirectory
    else .ok (t.setFile n dir content h hn)
  else .error .notDirectory

/-- Puts a file at a path whose directories exist. -/
def place (t : Tree) (p : FilePath) (content : ByteArray) : Except Fault Tree :=
  match p.fault? with
  | some f => .error f
  | none => match p.names.reverse with
    | [] => .error .busy
    | n :: above => do
      let dir ← t.follow [] above.reverse
      if ¬ t.IsDirectory dir then .error .notDirectory
      else if n = "." || n = ".." then .error .busy
      else if FilePath.isTooLong n then .error .nameTooLong
      else if p.endsInSlash then .error .notDirectory
      else t.placeIn dir n content

/-- Writes a file. It is complete before it gets its name, so its directory needs room for
a temporary one. -/
def write (t : Tree) (p : FilePath) (content : ByteArray) : Except WriteFault Unit × Tree :=
  match t.makeDirectories p.directory with
  | (.error f, made) => (.error ⟨p.directory, f⟩, made)
  | (.ok (), made) =>
    if p.directory.hasNoRoom t.start then (.error ⟨p, .nameTooLong⟩, made)
    else match made.place p content with
      | .error f => (.error ⟨p, f⟩, made)
      | .ok t => (.ok (), t)

/-- Takes away the entry at a path with all that lies below it. -/
def remove (t : Tree) (p : FilePath) : Tree :=
  match t.locate p with
  | .ok (n :: l) => t.removeAt (n :: l)
  | _ => t

end Tree

end OpHeaders.Files
