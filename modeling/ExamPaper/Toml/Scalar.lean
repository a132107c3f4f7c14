import ExamPaper.Decimal.Reading
import ExamPaper.Document.Scalar
import ExamPaper.Limits
import ExamPaper.Text.Pieces
import ExamPaper.Toml.Value

/-!
# Numbers, truth values and dates in TOML

What a run of characters without quotes denotes. Digits may be grouped by single underscores;
leading zeros are allowed in exponents only.
-/

namespace ExamPaper

namespace Toml

/-- The digits without the underscores between them; none if an underscore is not between two
digits, a character is no digit, or there is none. -/
def ungroup? (isDigit : Char → Bool) : List Char → Option (List Char)
  | [] => none
  | [c] => if isDigit c then some [c] else none
  | c :: '_' :: cs => if isDigit c then (ungroup? isDigit cs).map (c :: ·) else none
  | c :: cs => if isDigit c then (ungroup? isDigit cs).map (c :: ·) else none

/-- The decimal digits of a group without leading zeros. -/
def wholeDigits? (cs : List Char) : Option (List Char) :=
  match ungroup? Char.isDigit cs with
  | some ('0' :: _ :: _) => none
  | digits => digits

/-- A whole number as a value; none if it does not even fit 128 bits. -/
def ofWhole? (n : Int) : Option Value :=
  if fitsWord n then some (.integer n)
  else if fitsWideWord n then some .outOfRange
  else none

/-- A whole number in base ten, its sign taken off. -/
def decimalWhole? (cs : List Char) : Option Nat := (wholeDigits? cs).bind Text.digits?

/-- A whole number in another base, its mark taken off. -/
def inBase? (base : Nat) (cs : List Char) : Option Nat :=
  (ungroup? (fun c => (Document.digitValue? base c).isSome) cs).bind (Document.inBase? base)

/-- A whole number. -/
def whole? : List Char → Option Int
  | '0' :: 'x' :: cs => (inBase? 16 cs).map Int.ofNat
  | '0' :: 'o' :: cs => (inBase? 8 cs).map Int.ofNat
  | '0' :: 'b' :: cs => (inBase? 2 cs).map Int.ofNat
  | '+' :: cs => (decimalWhole? cs).map Int.ofNat
  | '-' :: cs => (decimalWhole? cs).map fun n => -(n : Int)
  | cs => (decimalWhole? cs).map Int.ofNat

/-- The mark of an exponent. -/
def isExponentMark (c : Char) : Bool := c == 'e' || c == 'E'

/-- An exponent with its mark, without underscores; nothing at all is no exponent. -/
def exponentPart? : List Char → Option (List Char)
  | [] => some []
  | _ :: '+' :: cs => (ungroup? Char.isDigit cs).map ('e' :: ·)
  | _ :: '-' :: cs => (ungroup? Char.isDigit cs).map fun digits => 'e' :: '-' :: digits
  | _ :: cs => (ungroup? Char.isDigit cs).map ('e' :: ·)

/-- The decimal that a float is written as, without its sign and without underscores. -/
def decimal? (cs : List Char) : Option (List Char) :=
  let isWhole (c : Char) := c != '.' && !isExponentMark c
  let rest := cs.dropWhile isWhole
  (wholeDigits? (cs.takeWhile isWhole)).bind fun whole =>
    match rest with
    | [] => none
    | '.' :: rest =>
      (ungroup? Char.isDigit (rest.takeWhile fun c => !isExponentMark c)).bind fun fraction =>
        (exponentPart? (rest.dropWhile fun c => !isExponentMark c)).map fun exponent =>
          whole ++ '.' :: fraction ++ exponent
    | rest => (exponentPart? rest).map (whole ++ ·)

/-- A float without a sign. -/
def magnitude? (cs : List Char) : Option Value :=
  match String.ofList cs with
  | "inf" => some (.float (1.0 / 0.0))
  | "nan" => some (.float (0.0 / 0.0))
  | _ => (((decimal? cs).bind Decimal.float?).filter Float.isFinite).map .float

/-- The number with the other sign. -/
def negated : Value → Value
  | .float x => .float (-x)
  | v => v

/-- A float. -/
def float? : List Char → Option Value
  | '+' :: cs => magnitude? cs
  | '-' :: cs => (magnitude? cs).map negated
  | cs => magnitude? cs

/-- A number of exactly the given number of digits. -/
def fixedDigits? (width : Nat) (cs : List Char) : Option Nat :=
  if cs.length = width then Text.digits? cs else none

/-- Whether a year has a day more than others. -/
def isLeapYear (year : Nat) : Bool := year % 4 == 0 && (year % 100 != 0 || year % 400 == 0)

/-- The number of days of a month. -/
def daysOf (year month : Nat) : Nat :=
  if month = 2 then if isLeapYear year then 29 else 28
  else if month = 4 ∨ month = 6 ∨ month = 9 ∨ month = 11 then 30
  else 31

/-- A day of the calendar: year, month and day with dashes between them. -/
def isDate (cs : List Char) : Bool :=
  match Text.splitAtChar '-' cs with
  | [year, month, day] =>
    match fixedDigits? 4 year, fixedDigits? 2 month, fixedDigits? 2 day with
    | some year, some month, some day =>
      1 ≤ month && month ≤ 12 && 1 ≤ day && day ≤ daysOf year month
    | _, _, _ => false
  | _ => false

/-- Seconds, with or without a fraction. -/
def isSecond (cs : List Char) : Bool :=
  let isPast := cs.drop 2
  let inRange := (fixedDigits? 2 (cs.take 2)).any (· ≤ 60)
  inRange && match isPast with
    | [] => true
    | '.' :: fraction => !fraction.isEmpty && fraction.all Char.isDigit
    | _ => false

/-- Hours and minutes. -/
def isClock (hour minute : List Char) : Bool :=
  (fixedDigits? 2 hour).any (· ≤ 23) && (fixedDigits? 2 minute).any (· ≤ 59)

/-- A time of day, with or without seconds. -/
def isTime (cs : List Char) : Bool :=
  match Text.splitAtChar ':' cs with
  | [hour, minute] => isClock hour minute
  | [hour, minute, second] => isClock hour minute && isSecond second
  | _ => false

/-- A time of day, with or without an offset. -/
def isOffsetTime (cs : List Char) : Bool :=
  let isSign (c : Char) := c == '+' || c == '-' || c == 'Z' || c == 'z'
  let time := cs.takeWhile fun c => !isSign c
  isTime time && match cs.dropWhile fun c => !isSign c with
    | [] | ['Z'] | ['z'] => true
    | 'Z' :: _ | 'z' :: _ => false
    | _ :: offset => match Text.splitAtChar ':' offset with
      | [hour, minute] => isClock hour minute
      | _ => false

/-- A date, a time, or a date and a time with `T` or a space between them. -/
def isMoment (cs : List Char) : Bool :=
  isTime cs || isDate cs ||
    (isDate (cs.take 10) && match cs.drop 10 with
      | c :: time => (c == 'T' || c == 't' || c == ' ') && isOffsetTime time
      | [] => false)

/-- What characters without quotes denote. -/
def scalar? (cs : List Char) : Option Value :=
  match String.ofList cs with
  | "true" => some (.boolean true)
  | "false" => some (.boolean false)
  | s =>
    if isMoment cs then some (.moment s)
    else ((whole? cs).bind ofWhole?).or (float? cs)

end Toml

end ExamPaper
