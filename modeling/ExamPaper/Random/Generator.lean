import ExamPaper.Random.Words

/-!
# Word generators

Two sources of words: xoshiro256**, seeded from one number through SplitMix64, and a stepping
source whose words are an arithmetic progression, which makes a draw predictable by hand. The first
is what runs draw from (`Generator`).

Mirrors `seeded`.
-/

namespace ExamPaper

/-- The state of the xoshiro256** generator. -/
structure Xoshiro where
  s0 : UInt64
  s1 : UInt64
  s2 : UInt64
  s3 : UInt64
  deriving DecidableEq, Repr

/-- The word with its bits moved `k` places towards the high end, those pushed out coming back in
at the low end. -/
def rotateLeft (word k : UInt64) : UInt64 := (word <<< k) ||| (word >>> (64 - k))

namespace Xoshiro

/-- One step of SplitMix64: its word, and the counter after it. -/
def splitMix (counter : UInt64) : UInt64 × UInt64 :=
  let counter := counter + 0x9e3779b97f4a7c15
  let z := (counter ^^^ (counter >>> 30)) * 0xbf58476d1ce4e5b9
  let z := (z ^^^ (z >>> 27)) * 0x94d049bb133111eb
  (z ^^^ (z >>> 31), counter)

/-- The generator whose state is the first four words of SplitMix64 from `seed`. -/
def seeded (seed : UInt64) : Xoshiro :=
  let (s0, counter) := splitMix seed
  let (s1, counter) := splitMix counter
  let (s2, counter) := splitMix counter
  let (s3, _) := splitMix counter
  { s0, s1, s2, s3 }

/-- The next word, and the state after it. -/
def next (g : Xoshiro) : UInt64 × Xoshiro :=
  let word := rotateLeft (g.s1 * 5) 7 * 9
  let s2 := g.s2 ^^^ g.s0
  let s3 := g.s3 ^^^ g.s1
  (word, {
    s0 := g.s0 ^^^ s3
    s1 := g.s1 ^^^ s2
    s2 := s2 ^^^ (g.s1 <<< 17)
    s3 := rotateLeft s3 45 })

instance : WordSource Xoshiro where
  next := next

end Xoshiro

/-- A kind of generators: its states, and the state that it starts from for a seed. Runs are written
over this class, so that laws about them hold whatever generator they draw from. -/
class Generator where
  State : Type
  draws : Draws State
  seeded : UInt64 → State

instance [Generator] : Draws Generator.State := Generator.draws

instance : Generator where
  State := Xoshiro
  draws := inferInstance
  seeded := Xoshiro.seeded

/-- The words `word`, `word + step`, `word + 2 * step`, … -/
structure Stepping where
  word : UInt64
  step : UInt64
  deriving DecidableEq, Repr

instance : WordSource Stepping where
  next g := (g.word, { g with word := g.word + g.step })

end ExamPaper
