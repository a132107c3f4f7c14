import ExamPaper.Proofs.Quota.Ranges

/-!
# Minimums are served from the last child to the first

What a branch owes its children it pays from the end of the list: the last child below its minimum
takes the next question. So there is at most one child that is being served, and

> in every state reached, at every branch, all children have their minimums; or those after the one
> being served have exactly theirs, and those before it have nothing (`reached_servedFromLast`).

No range has to fit for that: a child that asks for more than it may take is being served for ever,
and the calls that fail in it leave everything as it was.
-/

namespace ExamPaper

namespace QuotaTree

/-- How far siblings have come while their minimums are served from the last to the first. -/
inductive ServedFromLast : List QuotaTree → Prop where
  /-- All have their minimums. -/
  | served {children : List QuotaTree} (met : ∀ c ∈ children, c.quota.min ≤ c.quota.taken) :
      ServedFromLast children
  /-- One is being served: those after it have their minimums and no more, those before it have
  taken nothing. -/
  | serving (before : List QuotaTree) {child : QuotaTree} {after : List QuotaTree}
      (owes : child.quota.taken < child.quota.min)
      (waiting : ∀ c ∈ before, c.quota.taken = 0)
      (met : ∀ c ∈ after, c.quota.taken = c.quota.min) :
      ServedFromLast (before ++ child :: after)

/-- The children of a branch are served from the last to the first. -/
def ServesFromLast : QuotaTree → Prop
  | leaf _ _ => True
  | branch _ children => ServedFromLast children

/-- No child of a branch exceeds its minimum while a sibling is below its own. -/
def HoldsBack : QuotaTree → Prop
  | leaf _ _ => True
  | branch _ children => ∀ c ∈ children, ∀ d ∈ children,
    d.quota.taken < d.quota.min → c.quota.taken ≤ c.quota.min

/-- Children that stand in order are served from the last to the first. -/
theorem servedFromLast_of_inOrder {children : List QuotaTree} (h : children.Pairwise InOrder) :
    ServedFromLast children := by
  induction children with
  | nil => exact .served (by simp)
  | cons first children ih =>
    obtain ⟨hfirst, hrest⟩ := List.pairwise_cons.mp h
    cases ih hrest with
    | served met =>
      by_cases howes : first.quota.taken < first.quota.min
      · -- the first is the last that owes, and holds the others to their minimums
        refine .serving [] howes (by simp) ?_
        intro c hc
        exact Nat.le_antisymm ((hfirst c hc).2 howes) (met c hc)
      · refine .served ?_
        intro c hc
        rcases List.mem_cons.mp hc with rfl | hc
        · exact Nat.not_lt.mp howes
        · exact met c hc
    | @serving before child after owes waiting met =>
      -- a later child is being served, so the first has not begun
      refine .serving (first :: before) owes ?_ met
      intro c hc
      rcases List.mem_cons.mp hc with rfl | hc
      · exact (hfirst child (by simp)).1 owes
      · exact waiting c hc

/-- While a child is below its minimum, none of its siblings is above its own. -/
theorem ServedFromLast.taken_le_min {children : List QuotaTree} (h : ServedFromLast children)
    {c d : QuotaTree} (hc : c ∈ children) (hd : d ∈ children)
    (howes : d.quota.taken < d.quota.min) : c.quota.taken ≤ c.quota.min := by
  cases h with
  | served met =>
    have hmet := met d hd
    omega
  | serving before owes waiting met =>
    rcases List.mem_append.mp hc with hbefore | hrest
    · have hnothing := waiting c hbefore
      omega
    · rcases List.mem_cons.mp hrest with rfl | hafter
      · exact Nat.le_of_lt owes
      · exact Nat.le_of_eq (met c hafter)

/-- In a steady branch minimums come first, those of later children before those of earlier ones. -/
theorem Steady.servesFromLast {t : QuotaTree} (h : Steady t) : ServesFromLast t ∧ HoldsBack t := by
  cases t with
  | leaf q bank => exact ⟨trivial, trivial⟩
  | branch q children =>
    have hserved : ServedFromLast children := servedFromLast_of_inOrder h.inOrder
    exact ⟨hserved, fun c hc d hd howes => hserved.taken_le_min hc hd howes⟩

/-- **Minimums are served from the last child to the first.** Whatever the ranges of a tree, in
every state that calls on its root reach, successful or not, every branch has children that all have
their minimums, or a child below its minimum before which nothing is taken and after which nothing
but the minimums is. So no child exceeds its minimum while a sibling is below its own. -/
theorem reached_servedFromLast {ρ : Type} [Draws ρ] {start t : QuotaTree}
    (h : Reached ρ start t) : t.Everywhere fun u => ServesFromLast u ∧ HoldsBack u := by
  obtain ⟨hsteady, _⟩ :=
    h.of_grows (steady_reset start) fun _ _ ht hgrows => hgrows.steady ht
  exact hsteady.mono fun _ hu => hu.servesFromLast

/-- A tree with a range that cannot be met: its last leaf is to take two questions and may take
one. -/
def overdrawnTree : QuotaTree :=
  branch { label := "ARRAY[a,...]", min := 0, max := 5 } [
    leaf { label := "a", min := 1, max := 3 } (tagged "a" ["a0", "a1", "a2"]),
    leaf { label := "b", min := 2, max := 1 } (tagged "b" ["b0", "b1"])]

/-- The tree after one more question. -/
def overdrawnOnce : QuotaTree := (GrowthCall.run .takeOne overdrawnTree.reset sampleSource).tree

/-- The tree after a question that it could not take. -/
def overdrawnTwice : QuotaTree := (GrowthCall.run .takeOne overdrawnOnce sampleSource).tree

/-- The last leaf is served, and stays below its minimum once it is full; the first one waits. -/
theorem reached_overdrawnTwice :
    Reached Stepping overdrawnTree overdrawnTwice ∧
    (overdrawnOnce.takeOne sampleSource).result = .error (.cannotGrow "b" 1) ∧
    overdrawnTwice =
      branch { label := "ARRAY[a,...]", min := 0, max := 5, taken := 1 } [
        leaf { label := "a", min := 1, max := 3 } (tagged "a" ["a0", "a1", "a2"]),
        leaf { label := "b", min := 2, max := 1, taken := 1 } (tagged "b" ["b0", "b1"])] ∧
    overdrawnTwice.Everywhere fun u => ServesFromLast u ∧ HoldsBack u := by
  have hreached : Reached Stepping overdrawnTree overdrawnTwice :=
    .call (.call .start .takeOne sampleSource) .takeOne sampleSource
  exact ⟨hreached, rfl, rfl, reached_servedFromLast hreached⟩

end QuotaTree

end ExamPaper
