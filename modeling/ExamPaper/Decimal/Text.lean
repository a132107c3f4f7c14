import ExamPaper.Decimal.Shortest

/-!
# Floats as text

The two ways in which the library writes a float: with the fewest digits that read back and never
an exponent (`text`), and with a fixed number of places, a half going to the even neighbour
(`fixed`). Zero keeps its sign in both.

Mirrors how the program prints a float where it names no precision (`text`) and where it names one
(`fixed`).
-/

namespace ExamPaper

namespace Decimal

/-- The digits with a point after the first `whole` of them, filled up with zeros where `whole` is
negative or past the last digit. -/
def positional (digits : List Char) (whole : Int) : List Char :=
  if whole ≤ 0 then '0' :: '.' :: List.replicate (-whole).toNat '0' ++ digits
  else
    let n := whole.toNat
    if digits.length ≤ n then digits ++ List.replicate (n - digits.length) '0'
    else digits.take n ++ '.' :: digits.drop n

/-- The texts of the values that are no finite numbers. -/
def nonFinite (x : Float) : List Char :=
  if x.isNaN then ['N', 'a', 'N'] else if x < 0 then ['-', 'i', 'n', 'f'] else ['i', 'n', 'f']

/-- The text with a minus sign before it, if asked for. -/
def signed (negative : Bool) (cs : List Char) : List Char :=
  if negative then '-' :: cs else cs

/-- The fewest digits that read back, without an exponent and without a point after a whole
number. -/
def text (x : Float) : String :=
  String.ofList <| match Dyadic.ofFloat? x with
    | none => nonFinite x
    | some d =>
      let s := shortest .up d
      let digits := Nat.toDigits 10 s.digits
      signed d.negative <|
        if s.digits = 0 then ['0'] else positional digits (digits.length + s.exponent)

/-- The whole number nearest to `n / unit`; a half goes to the even neighbour. -/
def roundHalfEven (n unit : Nat) : Nat :=
  let whole := n / unit
  let rest := 2 * (n % unit)
  if rest < unit then whole else if unit < rest then whole + 1 else whole + whole % 2

/-- The digits of a number, with zeros before them up to `width` of them. -/
def padded (width n : Nat) : List Char :=
  let digits := Nat.toDigits 10 n
  List.replicate (width - digits.length) '0' ++ digits

/-- The absolute value with `places` digits after the point. -/
def fixedAbs (places : Nat) (d : Dyadic) : List Char :=
  if places = 0 then
    Nat.toDigits 10 <|
      if 0 ≤ d.exponent then d.floorAbs else roundHalfEven d.mantissa (Nat.pow 2 (-d.exponent).toNat)
  else
    -- no float has more than 1074 places that are not zero
    let shown := min places 1074
    let n :=
      if 0 ≤ d.exponent then d.floorAbs * Nat.pow 10 shown
      else roundHalfEven (d.mantissa * Nat.pow 10 shown) (Nat.pow 2 (-d.exponent).toNat)
    let digits := padded (shown + 1) n
    digits.take (digits.length - shown) ++ '.' :: digits.drop (digits.length - shown) ++
      List.replicate (places - shown) '0'

/-- The float with `places` digits after the point. -/
def fixed (places : Nat) (x : Float) : String :=
  String.ofList <| match Dyadic.ofFloat? x with
    | none => nonFinite x
    | some d => signed d.negative (fixedAbs places d)

end Decimal

end ExamPaper
