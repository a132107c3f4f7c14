import ExamPaper.Text.Integer

/-!
# Reading floats

The grammar of a decimal: an optional sign, then `inf`, `infinity` or `nan` in any mix of cases, or
digits with an optional point (at least one digit on one of its sides) and an optional exponent.
The value is the float nearest to the decimal.
-/

namespace ExamPaper

namespace Decimal

/-- The value of digits that follow those of value `acc`, how many there are, and the rest. -/
def readDigits (acc count : Nat) : List Char → Nat × Nat × List Char
  | [] => (acc, count, [])
  | c :: cs =>
    if c.isDigit then readDigits (10 * acc + (c.toNat - 48)) (count + 1) cs
    else (acc, count, c :: cs)

/-- An exponent, its mark taken off: an optional sign and one or more digits to the end. -/
def exponent? (cs : List Char) : Option Int :=
  match cs with
  | '-' :: cs => (Text.digits? cs).map fun n => -(n : Int)
  | '+' :: cs => (Text.digits? cs).map Int.ofNat
  | cs => (Text.digits? cs).map Int.ofNat

/-- The float nearest to `digits * 10 ^ exponent`. Exponents far out of range are not computed
with: the value is infinite or zero. -/
def nearest (digits : Nat) (exponent : Int) : Float :=
  if digits = 0 then 0.0
  else
    let size := (Nat.log2 digits * 30103 / 100000 : Nat) + exponent
    if 400 < size then Float.ofScientific 1 false 400
    else if size < -400 then 0.0
    else if exponent < 0 then Float.ofScientific digits true exponent.natAbs
    else Float.ofScientific digits false exponent.natAbs

/-- A decimal without a sign. -/
def unsigned? (cs : List Char) : Option Float :=
  let (whole, wholeCount, rest) := readDigits 0 0 cs
  let (all, fractionCount, rest) := match rest with
    | '.' :: rest => readDigits whole 0 rest
    | rest => (whole, 0, rest)
  if wholeCount + fractionCount = 0 then none
  else match rest with
    | [] => some (nearest all (-fractionCount))
    | c :: rest =>
      if c = 'e' ∨ c = 'E' then
        (exponent? rest).map fun e => nearest all (e - fractionCount)
      else none

/-- The names of values that are no finite numbers, in any mix of cases. -/
def named? (cs : List Char) : Option Float :=
  match String.ofList (cs.map Char.toLower) with
  | "inf" | "infinity" => some (1.0 / 0.0)
  | "nan" => some (0.0 / 0.0)
  | _ => none

/-- A float without a sign. -/
def magnitude? (cs : List Char) : Option Float := (named? cs).or (unsigned? cs)

/-- A float with or without a sign. -/
def float? (cs : List Char) : Option Float :=
  match cs with
  | '-' :: cs => (magnitude? cs).map fun x => -x
  | '+' :: cs => magnitude? cs
  | cs => magnitude? cs

end Decimal

/-- A float that a whole text denotes. -/
def Text.float? (s : String) : Option Float := Decimal.float? s.toList

end ExamPaper
