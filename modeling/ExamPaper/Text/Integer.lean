import ExamPaper.Limits

/-!
# Integers in text

Reading an integer written in ASCII digits. A natural number may have a plus sign before it, an
integer a plus or a minus sign; at least one digit is needed, and the value has to fit the given
limit. Blanks are not allowed for.

Mirrors how the program reads the text of a count or of an integer.
-/

namespace ExamPaper

namespace Text

/-- The number that digits denote after those of value `acc`; none if a character is no digit. -/
def digitsFrom (acc : Nat) : List Char → Option Nat
  | [] => some acc
  | c :: cs => if c.isDigit then digitsFrom (10 * acc + (c.toNat - 48)) cs else none

/-- The number that one or more digits denote. -/
def digits? : List Char → Option Nat
  | [] => none
  | cs => digitsFrom 0 cs

/-- A natural number below `limit`, with or without a plus sign. -/
def natBelow? (limit : Nat) (cs : List Char) : Option Nat :=
  let value? := match cs with
    | '+' :: cs => digits? cs
    | cs => digits? cs
  value?.filter (· < limit)

/-- An integer from `-limit` up to and without `limit`, with or without a sign. -/
def intWithin? (limit : Nat) (cs : List Char) : Option Int :=
  match cs with
  | '-' :: cs => ((digits? cs).filter (· ≤ limit)).map fun n => -(n : Int)
  | cs => (natBelow? limit cs).map Int.ofNat

/-- A count: a natural number that fits 64 bits. -/
def count? (s : String) : Option Nat := natBelow? wordLimit s.toList

/-- A signed integer that fits 64 bits. -/
def int64? (s : String) : Option Int := intWithin? signedLimit s.toList

end Text

end ExamPaper
