import OpHeaders.Files.Fault
import OpHeaders.Text.Split

/-! Paths as they are written. Nothing is normalised: what `.`, `..` and repeated slashes
mean is decided when a path is followed. -/
namespace OpHeaders.Files

structure FilePath where
  text : String
deriving DecidableEq, Repr

namespace FilePath

def isAbsolute (p : FilePath) : Bool := p.text.toList.head? = some '/'

/-- Whether a slash stands at the end. -/
def endsInSlash (p : FilePath) : Bool := p.text.toList.getLast? = some '/'

/-- A path below another one. An absolute path is below none and stands for itself. -/
def join (p q : FilePath) : FilePath :=
  if q.isAbsolute then q
  else if p.text.isEmpty || p.endsInSlash then ⟨p.text ++ q.text⟩
  else ⟨p.text ++ "/" ++ q.text⟩

def pieces (p : FilePath) : List (List Char) := Text.split '/' p.text.toList

/-- The names along a path, `.` and `..` among them. -/
def names (p : FilePath) : List String := (p.pieces.filter (!·.isEmpty)).map String.ofList

/-! ### Parents -/

/-- Pieces that lead nowhere. -/
def isIdle (piece : List Char) : Bool := piece.isEmpty || piece = ['.']

def withoutIdleEnd (pieces : List (List Char)) : List (List Char) :=
  (pieces.reverse.dropWhile isIdle).reverse

def ofPieces (pieces : List (List Char)) : FilePath := ⟨String.ofList (['/'].intercalate pieces)⟩

/-- The path without its last name; idle pieces around it are dropped with it. Neither
the empty path nor the top has a parent. -/
def parent? (p : FilePath) : Option FilePath :=
  match p.pieces with
  | [] => none
  | first :: more => match withoutIdleEnd more with
    | [] => if first.isEmpty then none else some ⟨""⟩
    | more =>
      let rest := withoutIdleEnd more.dropLast
      some (if first.isEmpty && rest.isEmpty then ⟨"/"⟩ else ofPieces (first :: rest))

/-- The directory that a file with this path lies in. -/
def directory (p : FilePath) : FilePath :=
  match p.parent? with
  | some q => if q.text.isEmpty then ⟨"."⟩ else q
  | none => ⟨"."⟩

/-! ### Limits -/

/-- The most bytes that a name may have. -/
def maxNameBytes : Nat := 255

/-- The most bytes that a path may have. -/
def maxBytes : Nat := 4095

def isTooLong (name : String) : Bool := maxNameBytes < name.utf8ByteSize

/-- The bytes of the temporary name that a file has until it is complete. -/
def temporaryNameBytes : Nat := 10

/-- Whether the absolute path of a temporary file in a directory is too long, where relative
paths start at `start`. -/
def hasNoRoom (directory start : FilePath) : Bool :=
  maxBytes < ((start.join directory).join ⟨""⟩).text.utf8ByteSize + temporaryNameBytes

/-- What is wrong with a path whatever the files are. -/
def fault? (p : FilePath) : Option Fault :=
  if p.text.toList.contains '\x00' then some .nulInName
  else if p.text.isEmpty then some .notFound
  else if maxBytes < p.text.utf8ByteSize then some .nameTooLong
  else none

example : (FilePath.mk "out").join ⟨""⟩ = ⟨"out/"⟩ ∧ (FilePath.mk "out/").join ⟨"a.h"⟩ = ⟨"out/a.h"⟩ := by
  decide +kernel

example : (FilePath.mk "a//b/./c/").parent? = some ⟨"a//b"⟩ ∧ (FilePath.mk "./a").parent? = some ⟨"."⟩ ∧
    (FilePath.mk "a/.").parent? = some ⟨""⟩ ∧ (FilePath.mk "/a").parent? = some ⟨"/"⟩ ∧
    (FilePath.mk "//").parent? = none := by decide +kernel

end FilePath

end OpHeaders.Files
