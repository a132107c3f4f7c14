import ExamPaper.Quota.Growth
import ExamPaper.Selection.Sample

/-!
# Searching a selection

An attempt draws a random total from the range of a quota tree, fills the tree up to it, and draws
the questions of every leaf. The search makes attempts until the sum of the difficulties of one is
within the tolerance of the target, or the tries are used up, and keeps the first of those that come
closest.

Mirrors `assemble`, `attempt` and `gather`. The loop of `assemble` is `continueFrom`, with the tries
that are left as its fuel; what is logged is left out.
-/

namespace ExamPaper

/-- What a search looks for. -/
structure SearchParams where
  target : Float
  tolerance : Float
  /-- How many attempts are made at most; at least one is made. -/
  tries : Nat
  deriving DecidableEq, Repr

/-- A selection of questions and the sum of their difficulties. -/
structure Attempt where
  questions : List Question
  difficulty : Float
  deriving DecidableEq, Repr

/-- What a search has seen. -/
structure SearchStats where
  /-- The first of the attempts that come closest to the target. -/
  best : Attempt
  minDifficulty : Float
  maxDifficulty : Float
  attempts : Nat
  deriving DecidableEq, Repr

/-- How a search ends. -/
inductive SearchOutcome where
  | found (attempt : Attempt)
  /-- No attempt was within the tolerance. -/
  | exhausted (stats : SearchStats)
  deriving DecidableEq, Repr

/-- Why a search cannot go on. -/
inductive SearchError where
  | quota (e : QuotaError)
  | sample (e : OversizedSample)
  deriving DecidableEq, Repr

/-- The text that reports the error. -/
def SearchError.message : SearchError → String
  | quota e => e.message
  | sample e => e.message

namespace Search

variable {ρ : Type} [Draws ρ]

/-- Draws the questions of every leaf, as many as it has taken, from left to right. -/
def drawLeaves : List QuotaLeaf → ρ → Except SearchError (List Question) × ρ
  | [], r => (.ok [], r)
  | leaf :: leaves, r =>
    match Sample.draw leaf.bank leaf.quota.taken r with
    | (.error e, r) => (.error (.sample e), r)
    | (.ok questions, r) =>
      match drawLeaves leaves r with
      | (.error e, r) => (.error e, r)
      | (.ok rest, r) => (.ok (questions ++ rest), r)

/-- A selection and the sum of its difficulties. -/
def attemptOf (questions : List Question) : Attempt :=
  { questions, difficulty := sumFloats (questions.map (·.difficulty)) }

/-- One attempt, which starts from a tree with nothing taken. -/
def attempt (tree : QuotaTree) (r : ρ) : Except SearchError Attempt × ρ :=
  let tree := tree.reset
  let (total, r) := Draws.between tree.quota.min tree.quota.max r
  let filled := tree.fillTo total r
  match filled.result with
  | .error e => (.error (.quota e), filled.rng)
  | .ok () =>
    match drawLeaves filled.tree.leaves filled.rng with
    | (.error e, r) => (.error e, r)
    | (.ok questions, r) => (.ok (attemptOf questions), r)

/-- How far a sum of difficulties is from the target. -/
def deviation (p : SearchParams) (a : Attempt) : Float := (p.target - a.difficulty).abs

/-- The smaller of two floats; one that is no number does not count. -/
def smaller (x y : Float) : Float := if x.isNaN || y < x then y else x

/-- The larger of two floats; one that is no number does not count. -/
def larger (x y : Float) : Float := if x.isNaN || x < y then y else x

/-- What a search has seen after one attempt. -/
def first (a : Attempt) : SearchStats :=
  { best := a, minDifficulty := a.difficulty, maxDifficulty := a.difficulty, attempts := 1 }

/-- What a search has seen after one more attempt. -/
def next (p : SearchParams) (stats : SearchStats) (a : Attempt) : SearchStats where
  best := if deviation p a < deviation p stats.best then a else stats.best
  minDifficulty := smaller stats.minDifficulty a.difficulty
  maxDifficulty := larger stats.maxDifficulty a.difficulty
  attempts := stats.attempts + 1

/-- Makes further attempts, at most the given number of them, as long as the best one is not within
the tolerance. -/
def continueFrom (p : SearchParams) (tree : QuotaTree) :
    Nat → SearchStats → ρ → Except SearchError SearchStats × ρ
  | 0, stats, r => (.ok stats, r)
  | tries + 1, stats, r =>
    if p.tolerance <= deviation p stats.best then
      match attempt tree r with
      | (.error e, r) => (.error e, r)
      | (.ok a, r) => continueFrom p tree tries (next p stats a) r
    else (.ok stats, r)

/-- The outcome of a search that has seen all it will see. -/
def outcome (p : SearchParams) (stats : SearchStats) : SearchOutcome :=
  if deviation p stats.best < p.tolerance then .found stats.best else .exhausted stats

/-- Searches a selection; the tree has to be correct. -/
def search (tree : QuotaTree) (p : SearchParams) (r : ρ) : Except SearchError SearchOutcome × ρ :=
  match tree.firstIncorrect with
  | some node => (.error (.quota (.incorrectTree node.quota.label)), r)
  | none =>
    match attempt tree r with
    | (.error e, r) => (.error e, r)
    | (.ok a, r) =>
      match continueFrom p tree (p.tries - 1) (first a) r with
      | (.error e, r) => (.error e, r)
      | (.ok stats, r) => (.ok (outcome p stats), r)

end Search

end ExamPaper
