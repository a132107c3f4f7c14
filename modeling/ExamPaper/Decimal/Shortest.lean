import ExamPaper.Decimal.Dyadic

/-!
# The shortest decimal of a float

Of all decimals that read back as a given float, those with the fewest digits, and of these the
nearest: `shortest` finds it in exact arithmetic. The decimals that read back are those of the
interval between the midpoints to the two neighbouring floats, its ends included when the mantissa
is even. If a decimal of `n` digits lies in the interval, one of the two next to the value does, so
looking at these two for `n = 1, 2, …, 17` suffices.
-/

namespace ExamPaper

namespace Decimal

/-- The number `digits * 10 ^ exponent`. -/
structure Scaled where
  digits : Nat
  exponent : Int
  deriving DecidableEq, Repr

/-- Which of two equally near decimals is taken. -/
inductive Tie where
  /-- The larger one. -/
  | up
  /-- The one whose last digit is even. -/
  | even
  deriving DecidableEq, Repr

/-- A positive number `value / unit` with the interval from `low / unit` to `high / unit` of the
reals that read back as it, its ends included or not. -/
structure Readback where
  value : Nat
  low : Nat
  high : Nat
  unit : Nat
  closed : Bool
  deriving DecidableEq, Repr

namespace Readback

/-- The interval of the reals that read back as a positive float. -/
def ofDyadic (d : Dyadic) : Readback :=
  let value := 4 * d.mantissa
  let below := if d.mantissa = 0x10000000000000 ∧ -1074 < d.exponent then 1 else 2
  let scale := if 0 ≤ d.exponent then Nat.pow 2 d.exponent.toNat else 1
  { value := value * scale
    low := (value - below) * scale
    high := (value + 2) * scale
    unit := 4 * if 0 ≤ d.exponent then 1 else Nat.pow 2 (-d.exponent).toNat
    closed := d.mantissa % 2 == 0 }

/-- The same interval counted in units of `10 ^ k`. -/
def inUnitsOf (r : Readback) (k : Int) : Readback :=
  if 0 ≤ k then { r with unit := r.unit * Nat.pow 10 k.toNat }
  else
    let scale := Nat.pow 10 (-k).toNat
    { r with value := r.value * scale, low := r.low * scale, high := r.high * scale }

/-- Whether a whole number lies in the interval. -/
def contains (r : Readback) (n : Nat) : Bool :=
  if r.closed then r.low ≤ n * r.unit && n * r.unit ≤ r.high
  else r.low < n * r.unit && n * r.unit < r.high

/-- The whole number of the interval that is nearest to the value, if there is one. -/
def nearest? (tie : Tie) (r : Readback) : Option Nat :=
  let n := r.value / r.unit
  let rest := r.value % r.unit
  match r.contains n, r.contains (n + 1) with
  | false, false => none
  | true, false => some n
  | false, true => some (n + 1)
  | true, true =>
    if 2 * rest < r.unit then some n
    else if r.unit < 2 * rest then some (n + 1)
    else match tie with
      | .up => some (n + 1)
      | .even => some (if n % 2 = 0 then n else n + 1)

end Readback

/-- The least `j`, at most `bound`, with `unit ≤ value * 10 ^ j`. -/
def leadingZeros (value unit : Nat) : Nat → Nat
  | 0 => 0
  | bound + 1 => if unit ≤ value then 0 else leadingZeros (value * 10) unit bound + 1

/-- How many digits a number has before the point; one that starts with zeros after the point has
fewer than none. -/
def magnitude (value unit : Nat) : Int :=
  if unit ≤ value then (Nat.toDigits 10 (value / unit)).length
  else 1 - leadingZeros value unit 400

/-- The number without zeros at the end of its digits, of which at most `bound` are dropped. -/
def dropZeros (s : Scaled) : Nat → Scaled
  | 0 => s
  | bound + 1 =>
    if s.digits % 10 = 0 ∧ s.digits ≠ 0 then
      dropZeros ⟨s.digits / 10, s.exponent + 1⟩ bound
    else s

/-- The first decimal of the interval that has `count`, `count + 1`, … digits, in `tries` tries. -/
def shortestFrom (tie : Tie) (r : Readback) (size : Int) (count : Nat) : Nat → Scaled
  | 0 => ⟨(r.inUnitsOf (size - count)).value / (r.inUnitsOf (size - count)).unit, size - count⟩
  | tries + 1 =>
    match (r.inUnitsOf (size - count)).nearest? tie with
    | some n => dropZeros ⟨n, size - count⟩ 20
    | none => shortestFrom tie r size (count + 1) tries

/-- The shortest decimal of the absolute value. -/
def shortest (tie : Tie) (d : Dyadic) : Scaled :=
  if d.mantissa = 0 then ⟨0, 0⟩
  else
    let r := Readback.ofDyadic d
    shortestFrom tie r (magnitude r.value r.unit) 1 17

end Decimal

end ExamPaper
