import OpHeaders.Files.Tree.Writing

/-! What a program may do with files: read a text, and write one at once. A tree of files
gives both, and so does a file system. -/
namespace OpHeaders.Files

structure Access (m : Type → Type) where
  read : FilePath → m (Except Fault String)
  write : FilePath → String → m (Except WriteFault Unit)

/-- The files of a tree. -/
def Tree.access : Access (StateM Tree) where
  read p := fun t => (t.read p, t)
  write p s := fun t => t.write p s.toUTF8

end OpHeaders.Files
