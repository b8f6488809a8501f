/-! Blank characters and the trimming of texts. A character is blank when it has
the property White_Space of Unicode, which holds of the line separators and of the
no-break space but not of the zero-width marks. -/
namespace OpHeaders.Text

/-- The twenty-five characters with the property White_Space. -/
def isBlank (c : Char) : Bool :=
  ('\t' ≤ c && c ≤ '\r') || c = ' ' || c = '\u0085' || c = '\u00a0' || c = '\u1680' ||
  ('\u2000' ≤ c && c ≤ '\u200a') || c = '\u2028' || c = '\u2029' || c = '\u202f' ||
  c = '\u205f' || c = '\u3000'

def trimStart (s : List Char) : List Char := s.dropWhile isBlank

def trimEnd (s : List Char) : List Char := (s.reverse.dropWhile isBlank).reverse

/-- The text between its first and its last character that is not blank. -/
def trim (s : List Char) : List Char := trimEnd (trimStart s)

/-- `trim` on strings. -/
def trimmed (s : String) : String := String.ofList (trim s.toList)

example : isBlank '\n' = true ∧ isBlank '\u3000' = true ∧ isBlank '\u200b' = false := by decide

example : trim " a b\t".toList = "a b".toList := by decide

end OpHeaders.Text
