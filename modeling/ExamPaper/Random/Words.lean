import ExamPaper.Limits
import ExamPaper.Random.Draws

/-!
# Draws from random words

A source of 64-bit words becomes a source of draws. An index below `n` is the high half of the
product of a word and `n`, and words whose low half falls past the acceptance `zone` are passed
over, so that every index has the same share of the words. A number of a range is made from the
52 high bits of a word.

Mirrors `gen_range` for integers and for floats, as the generator samples them. There a word that is
passed over is followed by another without end; here `patience` is the most that are looked at. An
empty or infinite range of floats breaks the program off and gives its low end here.
-/

namespace ExamPaper

/-- A source of 64-bit words with state `σ`. -/
class WordSource (σ : Type) where
  /-- The next word, and the state after it. -/
  next : σ → UInt64 × σ

namespace WordSource

variable {σ : Type} [WordSource σ]

/-- How many words a draw looks at before it settles for the low end of its range.

A good generator has a word accepted more often than not; the bound only keeps a draw total on a
source that repeats a rejected word for ever. -/
def patience : Nat := 0x4000000000000000

/-- The largest low half with which a word is accepted for a range of `n` values. -/
def zone (n : Nat) : Nat := (n <<< (63 - n.log2)) - 1

/-- An index below `n`, looking at no more than the given number of words. -/
def belowFrom (n : Nat) : Nat → σ → Nat × σ
  | 0, s => (0, s)
  | patience + 1, s =>
    let (word, s) := next s
    let product := word.toNat * n
    if product % wordLimit ≤ zone n then (product / wordLimit, s) else belowFrom n patience s

/-- An index below `n`. -/
def below (n : Nat) (s : σ) : Nat × σ := belowFrom n patience s

theorem belowFrom_lt {n : Nat} (hn : 0 < n) (k : Nat) (s : σ) : (belowFrom n k s).1 < n := by
  induction k generalizing s with
  | zero => exact hn
  | succ k ih =>
    simp only [belowFrom]
    split
    · have := (next s).1.toNat_lt
      exact Nat.div_lt_of_lt_mul (Nat.mul_lt_mul_of_pos_right this hn)
    · exact ih _

/-- A signed 64-bit number from `lo` to `hi`, both included; over the full range it is the word
itself, read as a signed number. -/
def signedBetween (lo hi : Int) (s : σ) : Int × σ :=
  let count := (hi - lo + 1).toNat
  if count = wordLimit then
    let (word, s) := next s
    (word.toInt64.toInt, s)
  else
    let (k, s) := below count s
    (lo + k, s)

/-- The number of the unit range that the 52 high bits of a word denote. -/
def unitFraction (word : UInt64) : Float :=
  (word >>> 12).toFloat * Float.ofScientific 2220446049250313080847263336181640625 true 52

/-- A number of the range from `lo` up to and without `hi`, looking at no more than the given
number of words: rounding may bring a number up to `hi`, and it is then drawn again. -/
def withinFrom (lo hi : Float) : Nat → σ → Float × σ
  | 0, s => (lo, s)
  | patience + 1, s =>
    let (word, s) := next s
    let x := unitFraction word * (hi - lo) + lo
    if x < hi then (x, s) else withinFrom lo hi patience s

/-- A number of the range from `lo` up to and without `hi`. Such a range has to be non-empty and
finite, and the program is broken off if it is not; here it then gives its low end, and what is said
of draws is said of ranges that have numbers. -/
def within (lo hi : Float) (s : σ) : Float × σ :=
  if lo < hi && (hi - lo).isFinite then withinFrom lo hi patience s else (lo, s)

instance : Draws σ where
  below := below
  within := within
  below_lt s h := belowFrom_lt h patience s

end WordSource

end ExamPaper
