import ExamPaper.Decimal.Text

/-!
# Dates

A day of the calendar, its text, and the seed of a run of that day.

Mirrors `default_seed`. The day is an argument wherever it is needed and never read from a clock.
-/

namespace ExamPaper

/-- A day of the calendar. -/
structure Date where
  year : Nat
  month : Nat
  day : Nat
  deriving DecidableEq, Repr

namespace Date

/-- The text of a date: year, month and day with dashes between them. -/
def text (d : Date) : String :=
  String.ofList <|
    Decimal.padded 4 d.year ++ '-' :: Decimal.padded 2 d.month ++ '-' :: Decimal.padded 2 d.day

/-- The seed of runs of a day. It is a multiple of ten, so that the first editions of two days have
different seeds. -/
def seed (d : Date) : Nat := 10 * (10000 * d.year + 100 * d.month + d.day)

end Date

end ExamPaper
