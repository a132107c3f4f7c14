import ExamPaper.Proofs.Quota.Ranges

/-!
# What a call leaves behind

A node of a tree has an address: the positions of the children on the way down to it. Seen address
by address, taking a question is a small change, and one that happens as a whole or not at all.

> A question that cannot be taken, at whatever depth it fails, leaves the tree as it was. One that
> can is counted at the nodes on the way to one leaf and changes nothing else
> (`takeOne_allOrNothing`).

No range has to fit for that, and nothing is assumed of the numbers taken before. A branch that has
taken more than its children, or less, is as far from their sum after the call as it was before it
(`surplus`).

Filling a tree takes what is missing. What is there already is not given back:

> A tree filled to an amount has taken that amount exactly if it had taken no more before
> (`fillTo_exact`), and otherwise stays as it is (`overfilled_pairLeaf`).
-/

namespace ExamPaper

namespace QuotaTree

/-! ## Addresses -/

/-- The tree at an address, if there is one. -/
def subtree? : QuotaTree → List Nat → Option QuotaTree
  | t, [] => some t
  | leaf _ _, _ :: _ => none
  | branch _ children, k :: address => children[k]?.bind fun c => c.subtree? address

/-- What a node is without the trees below it. -/
inductive Node where
  | leaf (quota : Quota) (bank : List Question)
  | branch (quota : Quota) (children : Nat)

/-- The node with one more question taken. -/
def Node.grown : Node → Node
  | leaf q bank => leaf q.grown bank
  | branch q children => branch q.grown children

/-- The node at the root. -/
def node : QuotaTree → Node
  | leaf q bank => .leaf q bank
  | branch q children => .branch q children.length

/-- One more question is taken at the nodes on the way to a leaf, and nothing else is changed: no
label, no range, no bank, and no list of children. -/
structure GrownAlong (path : List Nat) (t t' : QuotaTree) : Prop where
  endsAtLeaf : ∃ q bank, t.subtree? path = some (leaf q bank)
  node_eq : ∀ address, (t'.subtree? address).map node =
    (t.subtree? address).map fun u => if address <+: path then u.node.grown else u.node

/-- How much more a branch has taken than its children together. -/
def surplus : QuotaTree → Int
  | leaf _ _ => 0
  | branch q children => q.taken - ((children.map fun c => c.quota.taken).sum : Nat)

/-- Every branch is as far from the sum of its children as before. -/
def KeepsSurplus (t t' : QuotaTree) : Prop :=
  ∀ address, (t'.subtree? address).map surplus = (t.subtree? address).map surplus

/-! ## One question more, by address -/

variable {before after : List QuotaTree} {child child' : QuotaTree}

/-- Where one child was replaced, the others are found as before. -/
theorem getElem?_replaced (child child' : QuotaTree) (k : Nat) :
    (before ++ child' :: after)[k]? =
      if k = before.length then some child' else (before ++ child :: after)[k]? := by
  by_cases hk : k = before.length
  · subst hk
    simp
  · rw [if_neg hk]
    rcases Nat.lt_or_ge k before.length with hlt | hge
    · rw [List.getElem?_append_left hlt, List.getElem?_append_left hlt]
    · obtain ⟨j, hj⟩ : ∃ j, k - before.length = j + 1 := ⟨k - before.length - 1, by omega⟩
      rw [List.getElem?_append_right hge, List.getElem?_append_right hge, hj,
        List.getElem?_cons_succ, List.getElem?_cons_succ]

/-- What is seen of a branch below its root when one child was replaced. -/
theorem subtree?_replaced (q q' : Quota) (child child' : QuotaTree) (k : Nat)
    (address : List Nat) :
    (branch q' (before ++ child' :: after)).subtree? (k :: address) =
      if k = before.length then child'.subtree? address
      else (branch q (before ++ child :: after)).subtree? (k :: address) := by
  rw [subtree?, subtree?, getElem?_replaced child child']
  by_cases hk : k = before.length
  · rw [if_pos hk, if_pos hk, Option.bind_some]
  · rw [if_neg hk, if_neg hk]

/-- An address leads into the child that it names first. -/
theorem subtree?_chosen (q : Quota) (address : List Nat) :
    (branch q (before ++ child :: after)).subtree? (before.length :: address) =
      child.subtree? address := by
  rw [subtree?_replaced q q child child, if_pos rfl]

/-- A tree grows along one path from its root down. -/
theorem Grows.grownAlong {t t' : QuotaTree} (h : Grows t t') : ∃ path, GrownAlong path t t' := by
  induction h with
  | @leaf q bank room =>
    refine ⟨[], ⟨q, bank, rfl⟩, ?_⟩
    intro address
    cases address with
    | nil => rfl
    | cons k address => rfl
  | @branch q before after child child' room chosen grows ih =>
    obtain ⟨path, ⟨q', bank, hleaf⟩, hnode⟩ := ih
    refine ⟨before.length :: path, ⟨q', bank, (subtree?_chosen q path).trans hleaf⟩, ?_⟩
    intro address
    cases address with
    | nil =>
      show some (Node.branch _ _) = some (if [] <+: before.length :: path then _ else _)
      rw [if_pos List.nil_prefix]
      simp [node, Node.grown]
    | cons k address =>
      rw [subtree?_replaced q _ child]
      by_cases hk : k = before.length
      · -- on the way: the rest of the address is one in the child
        subst hk
        rw [if_pos rfl, subtree?_chosen, hnode address]
        simp only [List.cons_prefix_cons, true_and]
      · rw [if_neg hk]
        simp only [List.cons_prefix_cons, hk, false_and, if_false]

theorem KeepsSurplus.refl (t : QuotaTree) : KeepsSurplus t t := fun _ => rfl

theorem KeepsSurplus.trans {t u v : QuotaTree} (htu : KeepsSurplus t u) (huv : KeepsSurplus u v) :
    KeepsSurplus t v := fun address => (huv address).trans (htu address)

/-- A branch that grows with one of its children is as far from their sum as before. -/
theorem surplus_grown {q : Quota} (hq : child'.quota = child.quota.grown) :
    (branch q.grown (before ++ child' :: after)).surplus =
      (branch q (before ++ child :: after)).surplus := by
  have hchild : child'.quota.taken = child.quota.taken + 1 := by rw [hq]; rfl
  have htaken : q.grown.taken = q.taken + 1 := rfl
  simp only [surplus, List.map_append, List.map_cons, List.sum_append, List.sum_cons]
  omega

/-- The root and the child that takes the question count one each. -/
theorem Grows.keepsSurplus {t t' : QuotaTree} (h : Grows t t') : KeepsSurplus t t' := by
  induction h with
  | leaf room =>
    intro address
    cases address with
    | nil => rfl
    | cons k address => rfl
  | @branch q before after child child' room chosen grows ih =>
    intro address
    cases address with
    | nil => exact congrArg some (surplus_grown grows.quota_eq)
    | cons k address =>
      rw [subtree?_replaced q _ child]
      by_cases hk : k = before.length
      · subst hk
        rw [if_pos rfl, subtree?_chosen]
        exact ih address
      · rw [if_neg hk]

variable {ρ : Type} [Draws ρ]

/-- **All or nothing.** Whatever the ranges of a tree and whatever has been taken: a question that
cannot be taken leaves the whole tree as it was, and one that can is counted once at each node on
the way from the root to one leaf, while nothing else changes. So however many questions are asked
for, and whether they can be taken or not, each branch stays as far from the sum of its children as
it was. -/
theorem takeOne_allOrNothing (t : QuotaTree) (r : ρ) :
    ((∃ e, (takeOne t r).result = .error e ∧ (takeOne t r).tree = t) ∨
      ((takeOne t r).result = .ok () ∧ ∃ path, GrownAlong path t (takeOne t r).tree)) ∧
    KeepsSurplus t (takeOne t r).tree ∧
    ∀ amount, KeepsSurplus t (fillTo amount t r).tree := by
  have hfill : ∀ amount, KeepsSurplus t (fillTo amount t r).tree := fun amount =>
    fillTo_of_grows (fun _ _ hu hgrows => hu.trans hgrows.keepsSurplus) amount r (.refl t)
  rcases takeOne_cases t r with ⟨hok, hgrows⟩ | ⟨e, herr, hsame⟩
  · exact ⟨Or.inr ⟨hok, hgrows.grownAlong⟩, hgrows.keepsSurplus, hfill⟩
  · refine ⟨Or.inl ⟨e, herr, hsame⟩, ?_, hfill⟩
    rw [hsame]
    exact .refl t

/-! ## Filling to an amount -/

/-- Nothing is taken and nothing drawn if there is enough. -/
theorem fillTo_enough {amount : Nat} {t : QuotaTree} (hmin : t.quota.min ≤ amount)
    (hmax : amount ≤ t.quota.max) (hle : amount ≤ t.quota.taken) (r : ρ) :
    fillTo amount t r = ⟨.ok (), t, r⟩ := by
  have hnone : amount - t.quota.taken = 0 := by omega
  rw [fillTo, if_pos ⟨hmin, hmax⟩, hnone]
  rfl

/-- **A tree filled to an amount.** If filling a tree succeeds, in whatever state the tree was, the
root has taken the amount afterwards exactly if it had taken no more before. A tree that had taken
more is left as it is, without a draw. -/
theorem fillTo_exact {amount : Nat} {t : QuotaTree} {r : ρ}
    (h : (fillTo amount t r).result = .ok ()) :
    ((fillTo amount t r).tree.quota.taken = amount ↔ t.quota.taken ≤ amount) ∧
    (amount < t.quota.taken → fillTo amount t r = ⟨.ok (), t, r⟩) := by
  obtain ⟨hmin, hmax, htaken⟩ := fillTo_taken h
  constructor
  · rw [htaken]
    show max _ _ = _ ↔ _
    omega
  · intro hlt
    exact fillTo_enough hmin hmax (Nat.le_of_lt hlt) r

/-- The sample tree with four questions taken, filled to five. -/
theorem fillTo_exact_sampleFilled :
    (sampleFilled.fillTo 5 sampleSource).result = .ok () ∧ sampleFilled.quota.taken = 4 ∧
    (sampleFilled.fillTo 5 sampleSource).tree.quota.taken = 5 := by
  have hok : (sampleFilled.fillTo 5 sampleSource).result = .ok () := rfl
  have htaken : sampleFilled.quota.taken = 4 := rfl
  exact ⟨hok, htaken, (fillTo_exact hok).1.mpr (by decide)⟩

/-- A leaf that may take both of its questions. -/
def pairLeaf : QuotaTree :=
  leaf { label := "a", min := 0, max := 2 } (tagged "a" ["a0", "a1"])

/-- The leaf with both questions taken. -/
def pairLeafFull : QuotaTree :=
  (GrowthCall.run (.fillTo 2) pairLeaf.reset sampleSource).tree

/-- A leaf that was filled to two questions can be filled to one: that succeeds, and two are taken
as before. -/
theorem overfilled_pairLeaf :
    Reached Stepping pairLeaf pairLeafFull ∧
    (pairLeafFull.fillTo 1 sampleSource).result = .ok () ∧
    (pairLeafFull.fillTo 1 sampleSource).tree.quota.taken = 2 := by
  exact ⟨.call .start (.fillTo 2) sampleSource, rfl, rfl⟩

end QuotaTree

end ExamPaper
