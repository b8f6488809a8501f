import OpHeaders.Files.Tree

/-! Following a path in a tree, and reading the file at its end. -/
namespace OpHeaders.Files.Tree

/-- The existing entry that names lead to from a location. Whatever is left behind has to
be a directory, also before `.` and `..`; above the top is the top. -/
def follow (t : Tree) (here : Location) : List String → Except Fault Location
  | [] => .ok here
  | n :: ns =>
    if ¬ t.IsDirectory here then .error .notDirectory
    else if n = "." then t.follow here ns
    else if n = ".." then t.follow here.tail ns
    else if FilePath.isTooLong n then .error .nameTooLong
    else match t.find? (n :: here) with
      | some _ => t.follow (n :: here) ns
      | none => .error .notFound

/-- The entry at the end of a path. With a slash at its end it has to be a directory. -/
def locate (t : Tree) (p : FilePath) : Except Fault Location :=
  match p.fault? with
  | some f => .error f
  | none => t.follow [] (if p.endsInSlash then p.names ++ ["."] else p.names)

/-- The text of a file. -/
def read (t : Tree) (p : FilePath) : Except Fault String :=
  match t.locate p with
  | .error f => .error f
  | .ok l => match t.find? l with
    | some (.file content) => match String.fromUTF8? content with
      | some s => .ok s
      | none => .error .notText
    | _ => .error .isDirectory

end OpHeaders.Files.Tree
