/-! Shortest decimals. A finite double stands for every real that rounds to it, an
interval around `m · 2 ^ q` whose ends belong to it iff `m` is even. Its decimal has the
fewest digits for which the grid of that many digits meets the interval. -/
namespace OpHeaders.Decimal

/-- `digits · 10 ^ exponent`. -/
structure Scientific where
  digits : Nat
  exponent : Int
deriving DecidableEq, Repr

/-- `numerator · 10 ^ k / denominator`, rounded down. -/
def scaledFloor (numerator denominator : Nat) (k : Int) : Nat :=
  match k with
  | .ofNat k => numerator * Nat.pow 10 k / denominator
  | .negSucc k => numerator / (denominator * Nat.pow 10 (k + 1))

/-- The sign of `a / b - d · 10 ^ k`. -/
def compareScaled (a b d : Nat) (k : Int) : Ordering :=
  match k with
  | .ofNat k => compare a (d * Nat.pow 10 k * b)
  | .negSucc k => compare (a * Nat.pow 10 (k + 1)) (d * b)

/-- The least power of ten above the positive fraction `a / b`. -/
def magnitude (a b : Nat) : Int :=
  if b ≤ a then (Nat.toDigits 10 (a / b)).length
  else match (List.range 400).find? fun j => b ≤ a * Nat.pow 10 j with
    | some j => 1 - (j : Int)
    | none => -400

/-- The reals from `low / unit` to `high / unit`, with the ends iff `closed`. -/
structure Interval where
  low : Nat
  high : Nat
  unit : Nat
  closed : Bool

def Interval.contains (i : Interval) (d : Nat) (k : Int) : Bool :=
  match compareScaled i.low i.unit d k, compareScaled i.high i.unit d k with
  | .lt, .gt => true
  | .eq, _ | _, .eq => i.closed
  | _, _ => false

/-- The reals that round to `m · 2 ^ q`; below a power of two the doubles lie closer. -/
def roundingInterval (m : Nat) (q : Int) : Interval :=
  let below : Nat := if m = Nat.pow 2 52 ∧ -1074 < q then 1 else 2
  let factor := match q - 2 with | .ofNat k => Nat.pow 2 k | .negSucc _ => 1
  let unit := match q - 2 with | .ofNat _ => 1 | .negSucc k => Nat.pow 2 (k + 1)
  ⟨(4 * m - below) * factor, (4 * m + 2) * factor, unit, m % 2 == 0⟩

/-- Of the two neighbours of `a / b` on the grid `10 ^ k` the nearer one in the interval;
of two that are equally near the even one. -/
def gridPoint? (i : Interval) (a b : Nat) (k : Int) : Option Nat :=
  let d := scaledFloor a b (-k)
  match i.contains d k, i.contains (d + 1) k with
  | true, false => some d
  | false, true => some (d + 1)
  | false, false => none
  | true, true => match compareScaled (2 * a) b (2 * d + 1) k with
    | .lt => some d
    | .gt => some (d + 1)
    | .eq => some (if d % 2 == 0 then d else d + 1)

/-- Without the zeros at the end of the digits; `fuel` bounds their number. -/
def Scientific.reduced (s : Scientific) : (fuel : Nat) → Scientific
  | 0 => s
  | n + 1 => if s.digits % 10 = 0 && s.digits ≠ 0
      then Scientific.reduced ⟨s.digits / 10, s.exponent + 1⟩ n else s

/-- The shortest decimal of `m · 2 ^ q`. Seventeen digits always suffice. -/
def shortest (m : Nat) (q : Int) : Scientific :=
  let a := match q with | .ofNat k => m * Nat.pow 2 k | .negSucc _ => m
  let b := match q with | .ofNat _ => 1 | .negSucc k => Nat.pow 2 (k + 1)
  let top := magnitude a b
  let hit := (List.range 17).findSome? fun n =>
    let k := top - (n + 1 : Nat)
    (gridPoint? (roundingInterval m q) a b k).map fun d => Scientific.mk d k
  (hit.getD ⟨0, 0⟩).reduced 20

/-- The digits of a nonnegative finite double. -/
def ofFloat (x : Float) : Scientific :=
  let bits := x.toBits.toNat
  let fraction : Nat := bits % Nat.pow 2 52
  let biased : Nat := bits / Nat.pow 2 52 % Nat.pow 2 11
  if biased = 0 then
    if fraction = 0 then ⟨0, 0⟩ else shortest fraction (-1074)
  else shortest (Nat.pow 2 52 + fraction) ((biased : Int) - 1075)

/-- Which decimals are written with a point and no exponent: those whose point stands
after at most `whole` digits, or before at most `leading` zeros. -/
structure Layout where
  whole : Int
  leading : Int

def zeros (n : Int) : String := String.ofList (List.replicate n.toNat '0')

/-- A whole number keeps one zero after its point; an exponent has no plus sign and no
filling zeros. -/
def Layout.write (l : Layout) (s : Scientific) : String :=
  let ds := Nat.toDigits 10 s.digits
  let point := ds.length + s.exponent
  if 0 ≤ s.exponent && point ≤ l.whole then String.ofList ds ++ zeros s.exponent ++ ".0"
  else if 0 < point && point ≤ l.whole then
    String.ofList (ds.take point.toNat) ++ "." ++ String.ofList (ds.drop point.toNat)
  else if -l.leading ≤ point && point ≤ 0 then "0." ++ zeros (-point) ++ String.ofList ds
  else
    let mantissa := match ds with
      | [d] => String.singleton d
      | d :: rest => String.singleton d ++ "." ++ String.ofList rest
      | [] => ""
    mantissa ++ "e" ++ toString (point - 1)

example : shortest 4503599627370496 (-52) = ⟨1, 0⟩ := by decide +kernel

example : shortest 1 (-1074) = ⟨5, -324⟩ := by decide +kernel

example : shortest 7205759403792794 (-56) = ⟨1, -1⟩ := by decide +kernel

end OpHeaders.Decimal
