import ExamPaper.Question.Basic
import ExamPaper.Random.Draws

/-!
# Drawing questions

Questions are drawn from a bank without putting them back. Each draw turns a wheel on which every
question that is left has a share in proportion to its frequency. Drawing as many questions as there
are gives the whole bank in its own order and turns no wheel.

Mirrors `draw`, `roulette` and `estimated_difficulty`. Where `draw` takes a question out of a pool
in place, the pool is given and returned. A wheel whose total is infinite or no number breaks the
program off (`spin`).
-/

namespace ExamPaper

/-- The sum of floats from the first to the last; the sum of none is minus zero. -/
def sumFloats (xs : List Float) : Float := xs.foldl (· + ·) (-0.0)

/-- More questions asked for than there are. -/
structure OversizedSample where
  count : Nat
  available : Nat
  deriving DecidableEq, Repr

/-- The text that reports that there are too few questions. -/
def OversizedSample.message (e : OversizedSample) : String :=
  "cannot draw " ++ Nat.repr e.count ++ " questions from a bank of " ++ Nat.repr e.available

namespace Sample

/-- The position, counted from `k` on, of the first question whose share ends after the cursor; the
last question if no share does. `passed` is the sum of the shares before. -/
def positionFrom (cursor passed : Float) (k last : Nat) : List Question → Nat
  | [] => last
  | q :: qs =>
    let passed := passed + q.frequency
    if cursor < passed then k else positionFrom cursor passed (k + 1) last qs

/-- The position of the question that the wheel stops at. A total that is infinite or no number is
outside of what is described here: the program is broken off when it asks for a number below it, and
`within` gives zero, so that the first share that is not empty is taken. `Sample.Turnable` says of
which pools this cannot come up, and `Sample.draw?` has a draw with this step left open. -/
def spin {ρ : Type} [Draws ρ] (pool : List Question) (r : ρ) : Nat × ρ :=
  let total := sumFloats (pool.map (·.frequency))
  let last := pool.length - 1
  if total <= 0.0 then (last, r)
  else
    let (cursor, r) := Draws.within 0.0 total r
    (positionFrom cursor 0.0 0 last pool, r)

/-- The questions drawn, those left in the pool, and the random source afterwards. -/
structure Drawn (ρ : Type) where
  chosen : List Question
  pool : List Question
  rng : ρ

/-- Draws a number of questions from a pool; an empty pool gives none. -/
def drawFrom {ρ : Type} [Draws ρ] : Nat → List Question → ρ → Drawn ρ
  | 0, pool, r => ⟨[], pool, r⟩
  | n + 1, pool, r =>
    let (k, r) := spin pool r
    match pool[k]? with
    | none => ⟨[], pool, r⟩
    | some q =>
      let rest := drawFrom n (pool.eraseIdx k) r
      { rest with chosen := q :: rest.chosen }

/-- Draws a number of questions from a bank. -/
def draw {ρ : Type} [Draws ρ] (bank : List Question) (count : Nat) (r : ρ) :
    Except OversizedSample (List Question) × ρ :=
  if bank.length < count then (.error ⟨count, bank.length⟩, r)
  else if count = bank.length then (.ok bank, r)
  else
    let drawn := drawFrom count bank r
    (.ok drawn.chosen, drawn.rng)

/-- The mean difficulty of a bank, each question counting by its frequency; there is none if the
bank is empty or has no weight. -/
def estimate? (bank : List Question) : Option Float :=
  let weight := sumFloats (bank.map (·.frequency))
  if bank.isEmpty || weight <= 0.0 then none
  else some (sumFloats (bank.map fun q => q.difficulty * q.frequency) / weight)

end Sample

end ExamPaper
