import OpHeaders.Decimal.Reading
import OpHeaders.Decimal.Shortest

/-! The numbers of YAML: integers, which are exact and fit 64 bits with or without a sign,
and doubles. Reading tells an integer that is too large for 64 bits but not for 128 from
a text that is no integer at all. -/
namespace OpHeaders.Yaml

inductive Number where
  | int (n : Int)
  | float (x : Float)

namespace Number

/-- An integer differs from every double. All doubles that are no numbers are alike. -/
def same : Number → Number → Bool
  | .int m, .int n => m == n
  | .float x, .float y => (x.isNaN && y.isNaN) || x == y
  | _, _ => false

/-- Doubles have a point and no exponent if the point stands after at most sixteen digits
or before at most four zeros. -/
def layout : Decimal.Layout := ⟨16, 4⟩

def floatText (x : Float) : String :=
  if x.isNaN then ".nan"
  else
    let negative := x.toBits.toNat / Nat.pow 2 63 = 1
    let size := if x.isInf then ".inf" else layout.write (Decimal.ofFloat x)
    if negative then "-" ++ size else size

/-- How a number is shown. -/
def text : Number → String
  | .int n => toString n
  | .float x => floatText x

/-! ### Integers -/

def isSign (c : Char) : Bool := c = '+' || c = '-'

/-- An optional sign and a zero with nothing but digits behind it, at least one: such a
text is no number. -/
def hasLeadingZero (s : List Char) : Bool :=
  match (match s with | c :: r => if isSign c then r else s | [] => []) with
  | '0' :: d :: ds => (d :: ds).all Char.isDigit
  | _ => false

def digit? (base : Nat) (c : Char) : Option Nat :=
  let value := if c.isDigit then c.toNat - '0'.toNat
    else if 'a' ≤ c ∧ c ≤ 'z' then c.toNat - 'a'.toNat + 10
    else if 'A' ≤ c ∧ c ≤ 'Z' then c.toNat - 'A'.toNat + 10
    else base
  if value < base then some value else none

/-- The value of a nonempty run of digits. -/
def digits? (base : Nat) : List Char → Option Nat
  | [] => none
  | s => s.foldlM (fun n c => (digit? base c).map (base * n + ·)) 0

def below? (bound : Nat) (n : Option Nat) : Option Nat := n.filter (· < bound)

/-- The digits behind the mark of a base: `0x`, `0o` or `0b`. -/
def marked? (bound : Nat) : List Char → Option Nat
  | '0' :: 'x' :: s => below? bound (digits? 16 s)
  | '0' :: 'o' :: s => below? bound (digits? 8 s)
  | '0' :: 'b' :: s => below? bound (digits? 2 s)
  | _ => none

def withoutPlus : List Char → List Char
  | '+' :: s => s
  | s => s

/-- A number below `2 ^ bits` with an optional plus sign. -/
def natural? (bits : Nat) (s : List Char) : Option Nat :=
  match marked? (Nat.pow 2 bits) (withoutPlus s) with
  | some n => some n
  | none => if hasLeadingZero s then none else below? (Nat.pow 2 bits) (digits? 10 (withoutPlus s))

/-- A number behind a minus sign, down to `-2 ^ (bits - 1)`. -/
def negative? (bits : Nat) : List Char → Option Nat
  | '-' :: s =>
    let bound := Nat.pow 2 (bits - 1) + 1
    match marked? bound s with
    | some n => some n
    | none => if hasLeadingZero ('-' :: s) then none else below? bound (digits? 10 s)
  | _ => none

def integer? (bits : Nat) (s : List Char) : Option Int :=
  match natural? bits s with
  | some n => some n
  | none => (negative? bits s).map fun n => -(n : Int)

/-! ### Doubles -/

/-- The double that a text denotes: a finite decimal, an infinity or no number. -/
def float? (s : List Char) : Option Float :=
  let unsigned := withoutPlus s
  let text := String.ofList s
  if s.head? = some '+' && unsigned.head?.any isSign then none
  else if [".inf", ".Inf", ".INF"].contains (String.ofList unsigned) then some (1.0 / 0.0)
  else if ["-.inf", "-.Inf", "-.INF"].contains text then some (-1.0 / 0.0)
  else if [".nan", ".NaN", ".NAN"].contains text then some (0.0 / 0.0)
  else Decimal.read? unsigned

end Number

end OpHeaders.Yaml
