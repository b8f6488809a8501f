import OpHeaders.Text.Lines
import OpHeaders.Text.Quoted

/-! The lines of a documentation comment. Every line starts with the marker and has no
blanks at its end. A description may be quoted; its lines are laid out as a paragraph, as
a field behind a name, or as a block. -/
namespace OpHeaders.Header

/-- What stands at the start of every line of a comment. -/
def marker : List Char := " *".toList

/-- The columns between the marker and the fields of a section. -/
def fieldIndent : Nat := 4

/-- What stands between the name of a field and its text. -/
def separator : List Char := " : ".toList

def pad (n : Nat) : List Char := List.replicate n ' '

/-- The length of a text in UTF-8. -/
def byteLength (s : List Char) : Nat := s.foldr (fun c n => c.utf8Size + n) 0

/-- The lines of a description. -/
def describedLines (text : String) : List (List Char) := Text.lines (Text.unquote text.toList)

/-- Lines of which the first follows `start` and the others follow `more`; without lines
`start` stands alone. -/
def continued (start more : List Char) (ls : List (List Char)) : List (List Char) :=
  Text.trimEnd (start ++ ls.headD []) :: ls.tail.map fun l => Text.trimEnd (more ++ l)

/-- A name and its description. The further lines are padded by the bytes of the name, so
that they are aligned below an ASCII name. -/
def fieldLines (indent : Nat) (name text : String) : List (List Char) :=
  continued (marker ++ pad indent ++ name.toList ++ separator)
    (marker ++ pad (indent + byteLength name.toList + byteLength separator)) (describedLines text)

/-- Text of which only the first line is indented. -/
def blockLines (indent : Nat) (text : String) : List (List Char) :=
  continued (marker ++ pad indent) marker (describedLines text)

/-- Text with every line one column behind the marker. -/
def paragraphLines (text : String) : List (List Char) :=
  (describedLines text).map fun l => Text.trimEnd (marker ++ ' ' :: l)

example : (fieldLines 4 "foo" "line one\nline two").map String.ofList =
    [" *    foo : line one", " *          line two"] := by decide +kernel

example : (blockLines 4 "a = Add(x, y)\n  nested").map String.ofList =
    [" *    a = Add(x, y)", " *  nested"] := by decide +kernel

example : (paragraphLines "\"Adds.\n\nElementwise.\"").map String.ofList =
    [" * Adds.", " *", " * Elementwise."] := by decide +kernel

end OpHeaders.Header
