import ExamPaper.Limits
import ExamPaper.Quota.Error
import ExamPaper.Text.Digit
import ExamPaper.Text.Integer

/-!
# Count ranges

How many questions to take: at least a minimum, and at most a maximum unless the range is unbounded.
A count range is written `*`, `+`, `?`, `N`, `a-b` or `a-*`. A text of this form is taken for a
count range whatever script its digits are from, but only ASCII digits denote a number.

Mirrors `Bound`, `is_range_text`, `int_range` and `parse_range`.
-/

namespace ExamPaper

/-- The upper end of a count range. -/
inductive Bound where
  | finite (n : Nat)
  /-- As many as there are. -/
  | unbounded
  deriving DecidableEq, Repr

/-- The text of an upper end. -/
def Bound.text : Bound → String
  | finite n => Nat.repr n
  | unbounded => "*"

/-- How many questions to take. -/
structure CountRange where
  min : Nat
  max : Bound
  deriving DecidableEq, Repr

namespace CountRange

/-- The range that an integer denotes: itself, or any number if it is negative. -/
def ofInt (n : Int) : CountRange :=
  if 0 ≤ n then ⟨n.toNat, .finite n.toNat⟩ else ⟨0, .unbounded⟩

/-- One or more digits of any script. -/
def isDigits (cs : List Char) : Bool := !cs.isEmpty && cs.all isDecimalDigit

/-- Digits with or without a minus sign. -/
def isIntegerText (cs : List Char) : Bool :=
  match cs with
  | '-' :: cs => isDigits cs
  | cs => isDigits cs

/-- The two ends of `a-b` or `a-*`, as written. -/
def ends? (cs : List Char) : Option (List Char × List Char) :=
  let low := cs.takeWhile isDecimalDigit
  match cs.dropWhile isDecimalDigit with
  | '-' :: high => if !low.isEmpty && (high == ['*'] || isDigits high) then some (low, high) else none
  | _ => none

/-- Whether a text without blanks at its ends has the form of a count range. -/
def isRangeText (s : String) : Bool :=
  s == "*" || s == "+" || s == "?" || isIntegerText s.toList || (ends? s.toList).isSome

/-- Reads a count range from a text without blanks at its ends; `source` is the text with them. -/
def parseTrimmed (source text : String) : Except QuotaError CountRange :=
  let invalid : Except QuotaError CountRange := .error (.invalidSpec source .notACountRange)
  match text with
  | "*" => .ok ⟨0, .unbounded⟩
  | "+" => .ok ⟨1, .unbounded⟩
  | "?" => .ok ⟨0, .finite 1⟩
  | text =>
    if isIntegerText text.toList then
      match Text.int64? text with
      | some n => .ok (ofInt n)
      | none => invalid
    else match ends? text.toList with
      | none => invalid
      | some (low, high) =>
        match Text.natBelow? wordLimit low with
        | none => invalid
        | some min =>
          if high = ['*'] then .ok ⟨min, .unbounded⟩
          else match Text.natBelow? wordLimit high with
            | none => invalid
            | some max =>
              if max < min then .error (.emptyRange text min max) else .ok ⟨min, .finite max⟩

/-- Reads a count range. -/
def parse (text : String) : Except QuotaError CountRange := parseTrimmed text (Text.trim text)

end CountRange

end ExamPaper
