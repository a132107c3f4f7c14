import ExamPaper.Quota.Tree
import Mathlib.Algebra.BigOperators.Group.List.Basic
import Mathlib.Algebra.GroupWithZero.Nat

/-!
# What holds at every node of a quota tree

A branch holds a list of trees, so Lean's own induction principle for `QuotaTree` speaks of the
list apart from the tree. `QuotaTree.induction` assumes the claim for every child instead, and
`Everywhere P` says that `P` holds at every node, so that an invariant is stated for one node and
its children only. The functions that recurse through a list of trees are rewritten here as the
list functions they are.

A tree and its `reset` differ in the numbers taken and in nothing else; whatever does not look at
these numbers is the same for both, and two trees with the same `reset` agree on it.
-/

namespace ExamPaper

namespace QuotaTree

/-- Induction on a quota tree: the claim for a branch may be derived from that for its children. -/
@[elab_as_elim, induction_eliminator]
theorem induction {motive : QuotaTree → Prop} (leaf : ∀ q bank, motive (leaf q bank))
    (branch : ∀ q children, (∀ c ∈ children, motive c) → motive (branch q children)) :
    ∀ t, motive t
  | .leaf q bank => leaf q bank
  | .branch q children => branch q children fun c _hc => induction leaf branch c

@[simp] theorem quota_leaf (q : Quota) (bank : List Question) : (leaf q bank).quota = q := rfl

@[simp] theorem quota_branch (q : Quota) (children : List QuotaTree) :
    (branch q children).quota = q := rfl

/-! ## `Everywhere`: a fact about every node -/

/-- `P` holds at every node of a tree. -/
inductive Everywhere (P : QuotaTree → Prop) : QuotaTree → Prop where
  | leaf {q : Quota} {bank : List Question} (here : P (leaf q bank)) : Everywhere P (leaf q bank)
  | branch {q : Quota} {children : List QuotaTree} (here : P (branch q children))
      (below : ∀ c ∈ children, Everywhere P c) : Everywhere P (branch q children)

variable {P Q : QuotaTree → Prop}

theorem everywhere_leaf {q : Quota} {bank : List Question} :
    Everywhere P (leaf q bank) ↔ P (leaf q bank) := by
  constructor
  · intro h
    cases h with
    | leaf here => exact here
  · exact Everywhere.leaf

/-- Something holds everywhere in a branch if it holds of it and everywhere in its children. -/
theorem everywhere_branch {q : Quota} {children : List QuotaTree} :
    Everywhere P (branch q children) ↔
      P (branch q children) ∧ ∀ c ∈ children, Everywhere P c := by
  constructor
  · intro h
    cases h with
    | branch here below => exact ⟨here, below⟩
  · intro h
    exact Everywhere.branch h.1 h.2

/-- What holds everywhere holds at the root. -/
theorem Everywhere.root {t : QuotaTree} (h : Everywhere P t) : P t := by
  cases h with
  | leaf here => exact here
  | branch here _ => exact here

theorem Everywhere.child {q : Quota} {children : List QuotaTree} {c : QuotaTree}
    (h : Everywhere P (.branch q children)) (hc : c ∈ children) : Everywhere P c :=
  (everywhere_branch.mp h).2 c hc

theorem Everywhere.mono {t : QuotaTree} (hPQ : ∀ u, P u → Q u) (h : Everywhere P t) :
    Everywhere Q t := by
  induction h with
  | leaf here => exact .leaf (hPQ _ here)
  | branch here _ ih => exact .branch (hPQ _ here) ih

/-! ## Recursion through a list of trees -/

/-- Trees are correct together if each of them is. -/
theorem areCorrect_iff {ts : List QuotaTree} :
    areCorrect ts = true ↔ ∀ t ∈ ts, t.isCorrect = true := by
  induction ts with
  | nil => simp [areCorrect]
  | cons t ts ih => simp [areCorrect, ih]

/-- A branch is correct if it has children and all of them are correct. -/
theorem isCorrect_branch {q : Quota} {children : List QuotaTree} :
    (branch q children).isCorrect = true ↔
      children ≠ [] ∧ ∀ c ∈ children, c.isCorrect = true := by
  rw [isCorrect, Bool.and_eq_true, areCorrect_iff]
  simp

theorem leavesOf_eq_flatMap (ts : List QuotaTree) : leavesOf ts = ts.flatMap leaves := by
  induction ts with
  | nil => rfl
  | cons t ts ih => rw [leavesOf, ih, List.flatMap_cons]

/-- The leaves of a branch are those of its children in their order. -/
theorem leaves_branch (q : Quota) (children : List QuotaTree) :
    (branch q children).leaves = children.flatMap leaves := by
  rw [leaves, leavesOf_eq_flatMap]

/-- A number summed over the leaves of a branch is summed over its children first. -/
theorem sum_leaves_branch (f : QuotaLeaf → Nat) (q : Quota) (children : List QuotaTree) :
    ((branch q children).leaves.map f).sum =
      (children.map fun c => (c.leaves.map f).sum).sum := by
  rw [leaves_branch, List.map_flatMap, List.flatMap, List.sum_flatten, List.map_map]
  rfl

theorem resetAll_eq_map (ts : List QuotaTree) : resetAll ts = ts.map reset := by
  induction ts with
  | nil => rfl
  | cons t ts ih => rw [resetAll, ih, List.map_cons]

/-- Resetting a branch resets its children. -/
theorem reset_branch (q : Quota) (children : List QuotaTree) :
    (branch q children).reset = branch { q with taken := 0 } (children.map reset) := by
  rw [reset, resetAll_eq_map]

/-- Nothing incorrect is found in trees if nothing is found in any of them. -/
theorem firstIncorrectOf_eq_none_iff {ts : List QuotaTree} :
    firstIncorrectOf ts = none ↔ ∀ t ∈ ts, t.firstIncorrect = none := by
  induction ts with
  | nil => simp [firstIncorrectOf]
  | cons t ts ih => simp [firstIncorrectOf, ih]

/-- There is no first incorrect node exactly if the tree is correct. -/
theorem firstIncorrect_eq_none_iff {t : QuotaTree} :
    t.firstIncorrect = none ↔ t.isCorrect = true := by
  induction t with
  | leaf q bank => simp [firstIncorrect, isCorrect]
  | branch q children ih =>
    rw [isCorrect_branch, firstIncorrect]
    by_cases hnil : children = []
    · simp [hnil]
    · rw [if_neg (by simpa using hnil), firstIncorrectOf_eq_none_iff]
      exact ⟨fun h => ⟨hnil, fun c hc => (ih c hc).mp (h c hc)⟩,
        fun h c hc => (ih c hc).mpr (h.2 c hc)⟩

/-- What a leaf says when all leaves of a tree are read from left to right. -/
theorem Everywhere.of_mem_leaves {t : QuotaTree} (h : Everywhere P t) :
    ∀ l ∈ t.leaves, P (.leaf l.quota l.bank) := by
  induction h with
  | leaf here =>
    intro l hl
    obtain rfl := List.mem_singleton.mp hl
    exact here
  | branch _ _ ih =>
    intro l hl
    rw [leaves_branch, List.mem_flatMap] at hl
    obtain ⟨c, hc, hlc⟩ := hl
    exact ih c hc l hlc

/-! ## `reset`: the tree without the numbers taken -/

/-- Resetting forgets what has been taken and keeps the rest. -/
@[simp] theorem quota_reset (t : QuotaTree) : t.reset.quota = { t.quota with taken := 0 } := by
  cases t <;> rfl

theorem reset_reset (t : QuotaTree) : t.reset.reset = t.reset := by
  induction t with
  | leaf q bank => rfl
  | branch q children ih =>
    rw [reset_branch, reset_branch, List.map_map]
    exact congrArg _ (List.map_congr_left ih)

/-- Whether a tree is correct does not depend on what has been taken. -/
theorem isCorrect_reset (t : QuotaTree) : t.reset.isCorrect = t.isCorrect := by
  rw [Bool.eq_iff_iff]
  induction t with
  | leaf q bank => simp [reset, isCorrect]
  | branch q children ih =>
    rw [reset_branch, isCorrect_branch, isCorrect_branch, List.forall_mem_map]
    exact and_congr (by simp) (forall₂_congr ih)

/-- A fact that does not depend on the numbers taken holds everywhere in a tree if it holds
everywhere in its `reset`. -/
theorem everywhere_reset {t : QuotaTree} (hP : ∀ u, P (reset u) ↔ P u) :
    Everywhere P t.reset ↔ Everywhere P t := by
  induction t with
  | leaf q bank => rw [reset, everywhere_leaf, everywhere_leaf]; exact hP (.leaf q bank)
  | branch q children ih =>
    rw [everywhere_branch, ← hP, reset_branch, everywhere_branch, List.forall_mem_map]
    exact and_congr_right fun _ => forall₂_congr ih

/-- Such a fact is the same for trees with the same `reset`. -/
theorem everywhere_of_reset_eq (hP : ∀ u, P (reset u) ↔ P u) {t u : QuotaTree}
    (h : t.reset = u.reset) (hu : Everywhere P u) : Everywhere P t := by
  rw [← everywhere_reset hP] at hu ⊢
  rw [h]
  exact hu

/-- Trees with the same `reset` have the same label and the same range. -/
theorem quota_eq_of_reset_eq {t u : QuotaTree} (h : t.reset = u.reset) :
    t.quota.label = u.quota.label ∧ t.quota.min = u.quota.min ∧ t.quota.max = u.quota.max := by
  have hq : t.reset.quota = u.reset.quota := congrArg quota h
  rw [quota_reset, quota_reset, Quota.mk.injEq] at hq
  obtain ⟨hlabel, hmin, hmax, _⟩ := hq
  exact ⟨hlabel, hmin, hmax⟩

end QuotaTree

/-- A leaf of a tree with nothing taken. -/
def QuotaLeaf.reset (l : QuotaLeaf) : QuotaLeaf := { l with quota := { l.quota with taken := 0 } }

namespace QuotaTree

/-- The leaves of a tree that is reset are its leaves with nothing taken. -/
theorem leaves_reset (t : QuotaTree) : t.reset.leaves = t.leaves.map QuotaLeaf.reset := by
  induction t with
  | leaf q bank => rfl
  | branch q children ih =>
    rw [reset_branch, leaves_branch, leaves_branch, List.flatMap_map, List.map_flatMap]
    exact List.flatMap_congr ih

/-- What is said of the leaves one by one, and does not depend on the numbers taken, is the same for
trees with the same `reset`. -/
theorem forall₂_leaves_of_reset_eq {β : Type} {R : QuotaLeaf → β → Prop}
    (hR : ∀ l b, R l.reset b ↔ R l b) {t u : QuotaTree} (h : t.reset = u.reset) {bs : List β}
    (ht : List.Forall₂ R t.leaves bs) : List.Forall₂ R u.leaves bs := by
  have hforget : ∀ v : QuotaTree,
      List.Forall₂ R v.reset.leaves bs ↔ List.Forall₂ R v.leaves bs := by
    intro v
    rw [leaves_reset, List.forall₂_map_left_iff]
    simp only [hR]
  rw [← hforget] at ht ⊢
  rw [← h]
  exact ht

end QuotaTree

end ExamPaper
