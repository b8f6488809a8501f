import OpHeaders.Text.CaseTable

/-! Full upper-casing. Every character is mapped by itself, without regard to its
neighbours; some have an upper case of two or three characters. -/
namespace OpHeaders.Text

/-- The upper case of a character outside ASCII, by the table. -/
def upperByTable (c : Char) : List Char :=
  match longUpperCases.lookup c.toNat with
  | some cs => cs.map Char.ofNat
  | none => match caseRuns.find? (·.covers c.toNat) with
    | some r => [Char.ofNat ((c.toNat : Int) + r.distance).toNat]
    | none => [c]

def upperChar (c : Char) : List Char :=
  if c.toNat < 128 then [c.toUpper] else upperByTable c

def upperCase (s : List Char) : List Char := s.flatMap upperChar

example : upperCase "inc_api_1".toList = "INC_API_1".toList := by decide

example : upperCase "ß".toList = "SS".toList ∧ upperCase "ŉ".toList = "ʼN".toList := by
  decide +kernel

example : upperCase "σς".toList = "ΣΣ".toList ∧ upperCase "日".toList = "日".toList := by
  decide +kernel

end OpHeaders.Text
