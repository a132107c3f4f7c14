/-!
# Limits of words

Counts are held in 64 bits, signed integers in 64 bits with their sign. The limits are written out,
so that a comparison with one is a comparison with a numeral.
-/

namespace ExamPaper

/-- The least natural number that does not fit 64 bits. -/
def wordLimit : Nat := 0x10000000000000000

/-- The least natural number that does not fit 64 bits with a sign. -/
def signedLimit : Nat := 0x8000000000000000

/-- Whether an integer fits 64 bits with a sign. -/
def fitsSigned (n : Int) : Bool := -(signedLimit : Int) ≤ n && n < (signedLimit : Int)

/-- Whether an integer fits 64 bits, with or without a sign. -/
def fitsWord (n : Int) : Bool := -(signedLimit : Int) ≤ n && n < (wordLimit : Int)

/-- Whether an integer fits 128 bits, with or without a sign. -/
def fitsWideWord (n : Int) : Bool :=
  -0x80000000000000000000000000000000 ≤ n && n < 0x100000000000000000000000000000000

end ExamPaper
