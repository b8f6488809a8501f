import OpHeaders.Text.Blank
import OpHeaders.Text.Split

/-! The lines of a description. A text as a whole is trimmed and split at the
newlines; every line then loses its trailing blanks and keeps its own indentation. -/
namespace OpHeaders.Text

/-- A blank text has no lines. -/
def lines (s : List Char) : List (List Char) :=
  match trim s with
  | [] => []
  | body => (split '\n' body).map trimEnd

/-- The text in which every line is followed by a newline. -/
def unlines (ls : List (List Char)) : List Char := ls.flatMap (· ++ ['\n'])

example : lines "\n a  \n\n  b\n ".toList = ["a".toList, [], "  b".toList] := by decide

example : lines " \t\n".toList = [] := by decide

end OpHeaders.Text
