/-! Splitting a text at every occurrence of a character. -/
namespace OpHeaders.Text

/-- The parts of a text between the separators, so one more than there are of them. -/
def split (separator : Char) (s : List Char) : List (List Char) :=
  s.foldr (fun c parts => if c = separator then [] :: parts else match parts with
    | [] => [[c]]
    | p :: ps => (c :: p) :: ps) [[]]

example : split '/' "a//b".toList = ["a".toList, [], "b".toList] := by decide

end OpHeaders.Text
