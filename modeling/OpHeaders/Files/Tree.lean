import Std.Data.ExtTreeMap
import OpHeaders.Files.FilePath

/-! A tree of directories and files. Every entry lies in a directory of the tree; the top
is a directory that always exists, and it is also where relative paths start. -/
namespace OpHeaders.Files

inductive Entry where
  | directory
  | file (content : ByteArray)

instance : DecidableEq Entry
  | .directory, .directory => .isTrue rfl
  | .file a, .file b =>
    decidable_of_iff (a.data = b.data) ⟨fun h => congrArg _ (ByteArray.ext h), fun h => by cases h; rfl⟩
  | .directory, .file _ | .file _, .directory => .isFalse nofun

/-- A place in a tree: the names that lead to it, the innermost first. -/
abbrev Location := List String

structure Tree where
  /-- What the system puts in front of relative paths where it needs absolute ones. -/
  start : FilePath
  entries : Std.ExtTreeMap Location Entry
  rooted : ∀ (n : String) (l : Location) (e : Entry), entries[n :: l]? = some e →
    l = [] ∨ entries[l]? = some Entry.directory

namespace Tree

def empty (start : FilePath) : Tree := ⟨start, ∅, by simp⟩

/-- The entry at a location. -/
def find? (t : Tree) : Location → Option Entry
  | [] => some .directory
  | n :: l => t.entries[n :: l]?

def IsDirectory (t : Tree) (l : Location) : Prop := t.find? l = some Entry.directory

instance (t : Tree) (l : Location) : Decidable (t.IsDirectory l) :=
  inferInstanceAs (Decidable (_ = _))

theorem isDirectory_iff {t : Tree} {l : Location} :
    t.IsDirectory l ↔ l = [] ∨ t.entries[l]? = some Entry.directory := by
  cases l <;> simp [IsDirectory, find?]

/-- Puts a directory into another one. -/
def addDirectory (t : Tree) (n : String) (l : Location) (h : t.IsDirectory l) : Tree where
  start := t.start
  entries := t.entries.insert (n :: l) .directory
  rooted m k e he := by
    rw [Std.ExtTreeMap.getElem?_insert] at he
    rw [Std.ExtTreeMap.getElem?_insert]
    split
    · exact .inr rfl
    · split at he
      · rename_i heq
        obtain ⟨rfl, rfl⟩ : n = m ∧ l = k := by simpa using heq
        exact isDirectory_iff.1 h
      · exact t.rooted m k e he

/-- Puts a file into a directory, in the place of any file there. -/
def setFile (t : Tree) (n : String) (l : Location) (content : ByteArray) (h : t.IsDirectory l)
    (hn : ¬ t.IsDirectory (n :: l)) : Tree where
  start := t.start
  entries := t.entries.insert (n :: l) (.file content)
  rooted m k e he := by
    rw [Std.ExtTreeMap.getElem?_insert] at he
    rw [Std.ExtTreeMap.getElem?_insert]
    have old : k = [] ∨ t.entries[k]? = some Entry.directory := by
      split at he
      · rename_i heq
        obtain ⟨rfl, rfl⟩ : n = m ∧ l = k := by simpa using heq
        exact isDirectory_iff.1 h
      · exact t.rooted m k e he
    split
    · rename_i heq
      obtain rfl : n :: l = k := by simpa using heq
      exact absurd (isDirectory_iff.2 old) hn
    · exact old

/-- Takes away an entry with all that lies below it. -/
def removeAt (t : Tree) (l : Location) : Tree where
  start := t.start
  entries := t.entries.filter fun k _ => !l.isSuffixOf k
  rooted m k e he := by
    rw [Std.ExtTreeMap.getElem?_filter'] at he
    rw [Std.ExtTreeMap.getElem?_filter']
    obtain ⟨he, hk⟩ := Option.filter_eq_some_iff.1 he
    refine (t.rooted m k e he).imp id fun hd => Option.filter_eq_some_iff.2 ⟨hd, ?_⟩
    have notBelow : ¬ l <:+ m :: k := fun h => by simp [List.isSuffixOf_iff_suffix.2 h] at hk
    rw [Bool.not_eq_true', Bool.eq_false_iff]
    exact fun h => notBelow ((List.isSuffixOf_iff_suffix.1 h).trans (List.suffix_cons m k))

/-- The text of a location; a slash ends that of a directory. -/
def locationText (l : Location) (e : Entry) : String :=
  "/".intercalate l.reverse ++ (match e with | .directory => "/" | .file _ => "")

/-- The paths of all entries in the order of their characters. -/
def paths (t : Tree) : List String :=
  (t.entries.toList.map fun e => locationText e.1 e.2).mergeSort (· ≤ ·)

end Tree

end OpHeaders.Files
