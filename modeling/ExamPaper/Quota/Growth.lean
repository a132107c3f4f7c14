import ExamPaper.Quota.Tree
import ExamPaper.Random.Draws

/-!
# Filling a quota tree

Questions are taken one at a time. A branch passes each to one of its children: to the last child
that is still below its minimum, and once all minimums are met to a random child among those that
may take more.

Mirrors `increment_one` and `fill_to`, on a tree that is given and returned where they change one in
place; a tree is returned after a failure too. The loop of `fill_to` runs as often as the amount is
above what has been taken, since every round that does not fail takes one question.
-/

namespace ExamPaper

namespace QuotaTree

/-- The position of the last tree that is below its minimum. -/
def lastOwing : List QuotaTree → Option Nat
  | [] => none
  | t :: ts =>
    match lastOwing ts with
    | some k => some (k + 1)
    | none => if t.hasToGrow then some 0 else none

/-- The positions, counted from `k` on, of the trees that may take more. -/
def growableFrom (k : Nat) : List QuotaTree → List Nat
  | [] => []
  | t :: ts => if t.canGrow then k :: growableFrom (k + 1) ts else growableFrom (k + 1) ts

/-- The position of the child that takes the next question, if there is one. -/
def target {ρ : Type} [Draws ρ] (children : List QuotaTree) (r : ρ) : Option Nat × ρ :=
  match lastOwing children with
  | some k => (some k, r)
  | none =>
    match growableFrom 0 children with
    | [] => (none, r)
    | k :: ks =>
      let (i, r) := Draws.below (ks.length + 1) r
      ((k :: ks)[i]?, r)

/-- What filling a tree leaves behind: the tree as far as it was filled, also if it failed. -/
structure Filled (ρ : Type) where
  result : Except QuotaError Unit
  tree : QuotaTree
  rng : ρ

mutual

/-- Takes one more question somewhere in the tree. The number of a branch goes up after that of its
child, and not at all if the child fails. -/
def takeOne {ρ : Type} [Draws ρ] (t : QuotaTree) (r : ρ) : Filled ρ :=
  match t with
  | leaf q bank =>
    if q.canGrow then ⟨.ok (), leaf q.grown bank, r⟩
    else ⟨.error (.cannotGrow q.label q.max), leaf q bank, r⟩
  | branch q children =>
    if q.canGrow then
      match target children r with
      | (none, r) => ⟨.error (.noGrowableChild q.label), branch q children, r⟩
      | (some k, r) =>
        match takeOneAt k children r with
        | (.error e, children, r) => ⟨.error e, branch q children, r⟩
        | (.ok (), children, r) => ⟨.ok (), branch q.grown children, r⟩
    else ⟨.error (.cannotGrow q.label q.max), branch q children, r⟩

/-- Takes one more question in the tree at a position. -/
def takeOneAt {ρ : Type} [Draws ρ] (k : Nat) (ts : List QuotaTree) (r : ρ) :
    Except QuotaError Unit × List QuotaTree × ρ :=
  match ts with
  | [] => (.ok (), [], r)
  | t :: ts =>
    match k with
    | 0 =>
      let taken := takeOne t r
      (taken.result, taken.tree :: ts, taken.rng)
    | k + 1 =>
      let (result, ts, r) := takeOneAt k ts r
      (result, t :: ts, r)

end

/-- The tree with one more question taken, if it can be taken. -/
def increment {ρ : Type} [Draws ρ] (t : QuotaTree) (r : ρ) : Except QuotaError QuotaTree × ρ :=
  let taken := takeOne t r
  (taken.result.map fun () => taken.tree, taken.rng)

/-- Takes a number of questions one after another, up to the first that cannot be taken. -/
def take {ρ : Type} [Draws ρ] : Nat → QuotaTree → ρ → Filled ρ
  | 0, t, r => ⟨.ok (), t, r⟩
  | n + 1, t, r =>
    match takeOne t r with
    | ⟨.error e, t, r⟩ => ⟨.error e, t, r⟩
    | ⟨.ok (), t, r⟩ => take n t r

/-- Fills the tree up to an amount; what has been taken before counts. -/
def fillTo {ρ : Type} [Draws ρ] (amount : Nat) (t : QuotaTree) (r : ρ) : Filled ρ :=
  if t.quota.min ≤ amount ∧ amount ≤ t.quota.max then take (amount - t.quota.taken) t r
  else ⟨.error (.amountOutOfRange amount t.quota.min t.quota.max), t, r⟩

end QuotaTree

end ExamPaper
