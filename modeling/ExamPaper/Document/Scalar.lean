import ExamPaper.Decimal.Reading
import ExamPaper.Document.Value
import ExamPaper.Limits
import ExamPaper.Text.Pieces

/-!
# Plain scalars

What a scalar without quotes denotes: null, a truth value, a number, or its own text. Integers are
decimal or follow `0x`, `0o` or `0b`; digits after a leading zero are text. An integer that fits 128
bits and not 64 denotes nothing, and one that does not even fit 128 bits is a float.
-/

namespace ExamPaper

namespace Document

/-- The value of a digit in bases up to sixteen. -/
def digitValue? (base : Nat) (c : Char) : Option Nat :=
  let n := c.toNat
  let value? :=
    if 48 ≤ n ∧ n ≤ 57 then some (n - 48)
    else if 97 ≤ n ∧ n ≤ 102 then some (n - 87)
    else if 65 ≤ n ∧ n ≤ 70 then some (n - 55)
    else none
  value?.filter (· < base)

/-- The number that digits of a base denote after those of value `acc`. -/
def inBaseFrom (base acc : Nat) : List Char → Option Nat
  | [] => some acc
  | c :: cs => (digitValue? base c).bind fun d => inBaseFrom base (base * acc + d) cs

/-- The number that one or more digits of a base denote. -/
def inBase? (base : Nat) : List Char → Option Nat
  | [] => none
  | cs => inBaseFrom base 0 cs

/-- The marks of the bases other than ten. -/
def baseMarks : List (List Char × Nat) :=
  [(['0', 'x'], 16), (['0', 'o'], 8), (['0', 'b'], 2)]

/-- A number with the mark of its base before it. -/
def marked? (cs : List Char) : Option Nat :=
  baseMarks.findSome? fun (mark, base) => (Text.dropPrefix? mark cs).bind (inBase? base)

/-- Digits after a leading zero, with or without a sign: such a scalar is text. -/
def isZeroPadded (cs : List Char) : Bool :=
  let digits := match cs with
    | '-' :: cs => cs
    | '+' :: cs => cs
    | cs => cs
  match digits with
  | '0' :: c :: rest => (c :: rest).all Char.isDigit
  | _ => false

/-- The whole number that a plain scalar denotes, of whatever size. -/
def whole? (cs : List Char) : Option Int :=
  let decimal? (digits : List Char) := if isZeroPadded cs then none else inBase? 10 digits
  match cs with
  | '-' :: digits => ((marked? digits).or (decimal? digits)).map fun n => -(n : Int)
  | '+' :: digits => ((marked? digits).or (decimal? digits)).map Int.ofNat
  | digits => ((marked? digits).or (decimal? digits)).map Int.ofNat

/-- The float that a plain scalar denotes: a decimal, or infinity or no number after a point. -/
def float? (cs : List Char) : Option Float :=
  let finite? (cs : List Char) := (Decimal.float? cs).filter Float.isFinite
  match String.ofList cs with
  | ".inf" | ".Inf" | ".INF" | "+.inf" | "+.Inf" | "+.INF" => some (1.0 / 0.0)
  | "-.inf" | "-.Inf" | "-.INF" => some (-1.0 / 0.0)
  | ".nan" | ".NaN" | ".NAN" => some (0.0 / 0.0)
  | _ => match cs with
    | '+' :: '+' :: _ => none
    | '+' :: '-' :: _ => none
    | '+' :: cs => finite? cs
    | cs => finite? cs

/-- What a scalar denotes. -/
inductive Resolution where
  | value (v : Value)
  /-- An integer between 64 and 128 bits. -/
  | outOfRange
  deriving Repr

/-- Whether a text is a word for null. -/
def isNullWord (s : String) : Bool := s == "null" || s == "Null" || s == "NULL" || s == "~"

/-- Whether a plain scalar denotes null: it is a word for it, or there is nothing. -/
def isNullText (s : String) : Bool := s.isEmpty || isNullWord s

/-- The truth value that a scalar denotes. -/
def bool? (s : String) : Option Bool :=
  match s with
  | "true" | "True" | "TRUE" => some true
  | "false" | "False" | "FALSE" => some false
  | _ => none

/-- What a whole number as a scalar denotes; none if it does not fit 128 bits. -/
def wholeResolution? (n : Int) : Option Resolution :=
  if fitsWord n then some (.value (.number (.int n)))
  else if fitsWideWord n then some .outOfRange
  else none

/-- What a plain scalar denotes. -/
def resolvePlain (cs : List Char) : Resolution :=
  let s := String.ofList cs
  if isNullText s then .value .null
  else match bool? s with
    | some b => .value (.bool b)
    | none => match (whole? cs).bind wholeResolution? with
      | some r => r
      | none =>
        if isZeroPadded cs then .value (.text s)
        else match float? cs with
          | some x => .value (.number (.float x))
          | none => .value (.text s)

end Document

end ExamPaper
