/-!
# Ranges of characters

A class of characters is given by its ranges, the first and the last character of each. A character
is in the class if it is in one of them.
-/

namespace ExamPaper

/-- The numbers of the first and the last character of each range of a class. -/
abbrev CharRanges := List (Nat × Nat)

/-- Whether a character is in one of the ranges. -/
def inRanges (ranges : CharRanges) (c : Char) : Bool :=
  ranges.any fun (first, last) => first ≤ c.toNat && c.toNat ≤ last

end ExamPaper
