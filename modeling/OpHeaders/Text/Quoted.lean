/-! Quoted texts. A quoted text stands between double quotes and has a backslash in
front of every double quote inside; nothing else is escaped, not even a backslash. -/
namespace OpHeaders.Text

/-- A backslash and a double quote stand for the double quote. -/
def unescape : List Char → List Char
  | [] => []
  | '\\' :: '"' :: s => '"' :: unescape s
  | c :: s => c :: unescape s

def escape : List Char → List Char
  | [] => []
  | '"' :: s => '\\' :: '"' :: escape s
  | c :: s => c :: escape s

def quote (s : List Char) : List Char := '"' :: escape s ++ ['"']

/-- The text inside one pair of surrounding double quotes. A text without such a pair,
a single double quote among them, stands for itself. -/
def unquote : List Char → List Char
  | '"' :: s => if s.getLast? = some '"' then unescape s.dropLast else '"' :: s
  | s => s

example : unquote "\"a \\\"b\\\" \\\"".toList = "a \"b\" \\".toList := by decide

example : unquote "\"".toList = "\"".toList ∧ unquote "\"a".toList = "\"a".toList := by decide

example : unquote (quote "a\\\"b\\".toList) = "a\\\"b\\".toList := by decide

end OpHeaders.Text
