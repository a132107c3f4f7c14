/-!
# Random draws

What the rest of the library asks of chance: an index below a bound, and a number of a half-open
range. Everything random is written over the class `Draws`, so a law holds for every source of
draws, the generators of `ExamPaper.Random.Generator` among them. The only thing that a source
promises is that an index stays below its bound.

Mirrors what `gen_range` promises. A draw from an integer range is an index on top of its low end,
and it is made even if there is one index only.
-/

namespace ExamPaper

/-- A source of random draws with state `ρ`. -/
class Draws (ρ : Type) where
  /-- An index below `n`, and the state after the draw. -/
  below : (n : Nat) → ρ → Nat × ρ
  /-- A number of the range from `lo` up to and without `hi`, and the state after the draw. -/
  within : (lo hi : Float) → ρ → Float × ρ
  /-- An index stays below a positive bound. -/
  below_lt : ∀ {n : Nat} (s : ρ), 0 < n → (below n s).1 < n

namespace Draws

variable {ρ : Type} [Draws ρ]

/-- A natural number from `lo` to `hi`, both included. -/
def between (lo hi : Nat) (s : ρ) : Nat × ρ :=
  let (k, s) := below (hi - lo + 1) s
  (lo + k, s)

theorem le_between (lo hi : Nat) (s : ρ) : lo ≤ (between lo hi s).1 :=
  Nat.le_add_right ..

theorem between_le {lo hi : Nat} (h : lo ≤ hi) (s : ρ) : (between lo hi s).1 ≤ hi := by
  have := below_lt (n := hi - lo + 1) s (by omega)
  simp only [between]
  omega

end Draws

end ExamPaper
