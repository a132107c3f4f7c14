import ExamPaper.Limits

/-!
# The exact value of a float

A finite float is `± m * 2 ^ q` for a natural number `m` and an integer `q`. Everything that prints
a float, or turns one into a whole number, works on this exact value in the arithmetic of `Nat`.
-/

namespace ExamPaper

/-- The number `± mantissa * 2 ^ exponent`. -/
structure Dyadic where
  negative : Bool
  mantissa : Nat
  exponent : Int
  deriving DecidableEq, Repr

namespace Dyadic

/-- The exact value of a finite float. -/
def ofFloat? (x : Float) : Option Dyadic :=
  let bits : Nat := x.toBits.toNat
  let negative := bits / signedLimit == 1
  let biased : Nat := bits / 0x10000000000000 % 0x800
  let fraction : Nat := bits % 0x10000000000000
  if biased = 0x7FF then none
  else if biased = 0 then some ⟨negative, fraction, -1074⟩
  else some ⟨negative, 0x10000000000000 + fraction, (biased : Int) - 1075⟩

/-- The largest whole number that does not exceed the absolute value. -/
def floorAbs (d : Dyadic) : Nat :=
  if 0 ≤ d.exponent then d.mantissa * Nat.pow 2 d.exponent.toNat
  else d.mantissa / Nat.pow 2 (-d.exponent).toNat

/-- Whether the value is a whole number. -/
def isWhole (d : Dyadic) : Bool :=
  0 ≤ d.exponent || d.mantissa % Nat.pow 2 (-d.exponent).toNat == 0

end Dyadic

namespace Decimal

/-- Whether a float is finite and a whole number. -/
def isWhole (x : Float) : Bool := (Dyadic.ofFloat? x).any Dyadic.isWhole

/-- A number brought into the range of signed 64-bit integers. -/
def clampInt64 (n : Int) : Int := max (-(signedLimit : Int)) (min n (signedLimit - 1))

/-- The whole part of a float as a signed 64-bit integer; what is out of range goes to the nearer
end, and a value that is no number to zero. -/
def truncate (x : Float) : Int :=
  match Dyadic.ofFloat? x with
  | some d => clampInt64 (if d.negative then -d.floorAbs else d.floorAbs)
  | none => if x.isNaN then 0 else if x < 0 then -(signedLimit : Int) else signedLimit - 1

/-- The least count that is not below a float; a count that does not fit 64 bits goes to the
largest that does, and a value that is no number to zero. -/
def ceilCount (x : Float) : Nat :=
  match Dyadic.ofFloat? x with
  | some d =>
    if d.negative then 0
    else min (if d.isWhole then d.floorAbs else d.floorAbs + 1) (wordLimit - 1)
  | none => if x.isNaN || x < 0 then 0 else wordLimit - 1

end Decimal

end ExamPaper
