/-! Reading decimals: an optional sign, digits with at most one point among or around
them, and an optional exponent. The value is the double nearest to the decimal. -/
namespace OpHeaders.Decimal

def digitsValue (s : List Char) : Nat := s.foldl (fun n c => 10 * n + (c.toNat - '0'.toNat)) 0

def isDigits (s : List Char) : Bool := !s.isEmpty && s.all Char.isDigit

/-- The exponent after `e` or `E`; absent means zero. -/
def readExponent : List Char → Option Int
  | [] => some 0
  | e :: s =>
    if e = 'e' || e = 'E' then match s with
      | '-' :: s => if isDigits s then some (-(digitsValue s : Int)) else none
      | '+' :: s => if isDigits s then some (digitsValue s) else none
      | s => if isDigits s then some (digitsValue s) else none
    else none

/-- The double nearest to `digits · 10 ^ exponent`, or none when that is infinite. The
decimals beyond the range of the doubles on either side are told from their magnitude. -/
def nearest? (negative : Bool) (digits : Nat) (exponent : Int) : Option Float :=
  let magnitude := exponent + (Nat.toDigits 10 digits).length
  let size :=
    if digits = 0 || magnitude < -400 then 0.0
    else match exponent with
      | .ofNat k => if magnitude > 400 then 1.0 / 0.0 else Float.ofScientific digits false k
      | .negSucc k => Float.ofScientific digits true (k + 1)
  if size.isFinite then some (if negative then -size else size) else none

def readUnsigned? (negative : Bool) (s : List Char) : Option Float :=
  let whole := s.takeWhile Char.isDigit
  let rest := s.dropWhile Char.isDigit
  let fraction := match rest with | '.' :: r => r.takeWhile Char.isDigit | _ => []
  let rest := match rest with | '.' :: r => r.dropWhile Char.isDigit | r => r
  if whole.isEmpty && fraction.isEmpty then none
  else (readExponent rest).bind fun e =>
    nearest? negative (digitsValue (whole ++ fraction)) (e - fraction.length)

/-- The finite double that a text denotes. -/
def read? : List Char → Option Float
  | '+' :: s => readUnsigned? false s
  | '-' :: s => readUnsigned? true s
  | s => readUnsigned? false s

end OpHeaders.Decimal
