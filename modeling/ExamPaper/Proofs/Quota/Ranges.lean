import ExamPaper.Proofs.Quota.Growth
import ExamPaper.Random.Generator
import Mathlib.Algebra.Order.BigOperators.Group.List
import Mathlib.Algebra.Order.Group.Nat

/-!
# Filling a tree keeps every range

A tree whose ranges fit, each branch asking for no less than its children's minimums together and
for no more than their maximums together, can be filled to any total of its root's range, whatever
is drawn. What carries the proof is the order in which a branch serves its children:

> `ServesInOrder`: while some child is below its minimum, no child before it has taken anything, and
> no child after one below its minimum has taken more than its own minimum.

So as long as one minimum is open, no child exceeds its minimum, the children together have taken
less than all minimums together (`sum_taken_lt`), and the branch is below its own minimum. A branch
that has reached its minimum therefore has no open minimum below it (`Steady.meetsMin`), and one
that is not full always finds a child to hand the next question to (`takeOne_ok`).
-/

namespace ExamPaper

namespace QuotaTree

/-! ## The ranges of a tree and the numbers taken -/

/-- The range of a node is not empty, and it is one that its children can make up. -/
def RangeFits : QuotaTree → Prop
  | leaf q _ => q.min ≤ q.max
  | branch q children =>
    (children.map fun c => c.quota.min).sum ≤ q.min ∧ q.min ≤ q.max ∧
      q.max ≤ (children.map fun c => c.quota.max).sum

/-- A branch has taken what its children have taken together. -/
def TakesSum : QuotaTree → Prop
  | leaf _ _ => True
  | branch q children => q.taken = (children.map fun c => c.quota.taken).sum

/-- No more is taken than the maximum. -/
def WithinMax (t : QuotaTree) : Prop := t.quota.taken ≤ t.quota.max

/-- No less is taken than the minimum. -/
def MeetsMin (t : QuotaTree) : Prop := t.quota.min ≤ t.quota.taken

/-- How two siblings `c` before `d` stand while minimums are served from the last to the first. -/
def InOrder (c d : QuotaTree) : Prop :=
  (d.quota.taken < d.quota.min → c.quota.taken = 0) ∧
  (c.quota.taken < c.quota.min → d.quota.taken ≤ d.quota.min)

/-- The children of a branch are served from the last to the first up to their minimums. -/
def ServesInOrder : QuotaTree → Prop
  | leaf _ _ => True
  | branch _ children => children.Pairwise InOrder

/-- What growing keeps at every node. -/
structure Steady (t : QuotaTree) : Prop where
  takesSum : TakesSum t
  withinMax : WithinMax t
  inOrder : ServesInOrder t

/-- A range that fits its children is not empty. -/
theorem RangeFits.min_le_max {t : QuotaTree} (h : RangeFits t) : t.quota.min ≤ t.quota.max := by
  cases t with
  | leaf q bank => exact h
  | branch q children => exact h.2.1

theorem rangeFits_reset (t : QuotaTree) : RangeFits t.reset ↔ RangeFits t := by
  cases t with
  | leaf q bank => rfl
  | branch q children =>
    rw [reset_branch]
    simp only [RangeFits, List.map_map, Function.comp_def, quota_reset]

/-- Whether ranges fit does not depend on the numbers taken. -/
theorem rangeFits_of_reset_eq {t u : QuotaTree} (h : t.reset = u.reset)
    (hu : Everywhere RangeFits u) : Everywhere RangeFits t :=
  everywhere_of_reset_eq rangeFits_reset h hu

/-! ## The start: nothing taken -/

theorem taken_reset (t : QuotaTree) : t.reset.quota.taken = 0 := by rw [quota_reset]

/-- A tree with nothing taken is steady. -/
theorem steady_reset (t : QuotaTree) : Everywhere Steady t.reset := by
  induction t with
  | leaf q bank => exact .leaf ⟨trivial, Nat.zero_le _, trivial⟩
  | branch q children ih =>
    have hzero : ∀ c ∈ children.map reset, c.quota.taken = 0 := by
      rw [List.forall_mem_map]
      intro c _
      exact taken_reset c
    rw [reset_branch]
    refine .branch ⟨?_, Nat.zero_le _, ?_⟩ (List.forall_mem_map.mpr ih)
    · show 0 = ((children.map reset).map fun c => c.quota.taken).sum
      rw [List.map_congr_left hzero, List.map_const', List.sum_replicate, nsmul_zero]
    · show (children.map reset).Pairwise InOrder
      rw [List.pairwise_iff_forall_sublist]
      intro c d hcd
      have hc := hzero c (hcd.subset (by simp))
      have hd := hzero d (hcd.subset (by simp))
      exact ⟨fun _ => hc, fun _ => by omega⟩

/-! ## The step: one more question -/

/-- What a step keeps at the node where it happens, it keeps everywhere: off the path of the
question nothing changes. -/
theorem Grows.everywhere {P : QuotaTree → Prop}
    (hleaf : ∀ q bank, q.taken < q.max → P (.leaf q bank) → P (.leaf q.grown bank))
    (hbranch : ∀ q before child child' after, q.taken < q.max → Chosen before child after →
      child'.quota = child.quota.grown → P child' →
      P (.branch q (before ++ child :: after)) →
      P (.branch q.grown (before ++ child' :: after)))
    {t t' : QuotaTree} (h : Grows t t') : Everywhere P t → Everywhere P t' := by
  induction h with
  | leaf room =>
    intro ht
    exact .leaf (hleaf _ _ room ht.root)
  | branch room chosen grows ih =>
    intro ht
    have hchild := ih (ht.child (by simp))
    refine .branch (hbranch _ _ _ _ _ room chosen grows.quota_eq hchild.root ht.root) ?_
    intro c hc
    rcases List.mem_append.mp hc with hb | hc
    · exact ht.child (List.mem_append_left _ hb)
    · rcases List.mem_cons.mp hc with rfl | ha
      · exact hchild
      · exact ht.child (List.mem_append_right _ (List.mem_cons_of_mem _ ha))

/-- A branch that grows with one of its children still takes the sum of them. -/
theorem takesSum_grown {q : Quota} {before after : List QuotaTree} {child child' : QuotaTree}
    (hq : child'.quota = child.quota.grown)
    (h : TakesSum (branch q (before ++ child :: after))) :
    TakesSum (branch q.grown (before ++ child' :: after)) := by
  have hchild : child'.quota.taken = child.quota.taken + 1 := by rw [hq]; rfl
  simp only [TakesSum, List.map_append, List.map_cons, List.sum_append, List.sum_cons] at h ⊢
  show q.taken + 1 = _
  omega

/-- The siblings stay in order when a chosen one takes a question: if it was below its minimum it
still does not exceed it, and all that stand before it have taken nothing. -/
theorem inOrder_grown {before after : List QuotaTree} {child child' : QuotaTree}
    (chosen : Chosen before child after) (hq : child'.quota = child.quota.grown)
    (h : (before ++ child :: after).Pairwise InOrder) :
    (before ++ child' :: after).Pairwise InOrder := by
  have htaken : child'.quota.taken = child.quota.taken + 1 := by rw [hq]; rfl
  have hmin : child'.quota.min = child.quota.min := by rw [hq]; rfl
  rw [List.pairwise_append, List.pairwise_cons] at h ⊢
  obtain ⟨hbefore, ⟨hchild, hafter⟩, hcross⟩ := h
  have hmet : ∀ d ∈ after, d.quota.min ≤ d.quota.taken := by
    intro d hd
    rcases chosen with ⟨_, hmet⟩ | ⟨_, hmet⟩
    · exact hmet d hd
    · exact hmet d (List.mem_append_right _ (List.mem_cons_of_mem _ hd))
  refine ⟨hbefore, ⟨?_, hafter⟩, ?_⟩
  · -- the child chosen and a sibling after it, which has met its minimum
    intro d hd
    have hcd := hchild d hd
    have := hmet d hd
    exact ⟨fun howes => by omega, fun howes => hcd.2 (by omega)⟩
  · intro c hc d hd
    rcases List.mem_cons.mp hd with rfl | hd
    · -- a sibling before the child chosen
      have hcc := hcross c hc child (List.mem_cons_self ..)
      refine ⟨fun howes => hcc.1 (by omega), fun howes => ?_⟩
      rcases chosen with ⟨hopen, _⟩ | ⟨_, hmet⟩
      · omega
      · -- without an open minimum there is no `c` below its own
        have := hmet c (List.mem_append_left _ hc)
        omega
    · exact hcross c hc d (List.mem_cons_of_mem _ hd)

/-- A steady tree stays steady when it grows. -/
theorem Grows.steady {t t' : QuotaTree} (h : Grows t t') (ht : Everywhere Steady t) :
    Everywhere Steady t' := by
  refine h.everywhere ?_ ?_ ht
  · intro q bank room _
    exact ⟨trivial, room, trivial⟩
  · intro q before child child' after room chosen hq _ hs
    exact ⟨takesSum_grown hq hs.takesSum, room, inOrder_grown chosen hq hs.inOrder⟩

/-! ## Open minimums -/

/-- Children one of which is below its minimum have taken less than all their minimums. -/
theorem sum_taken_lt {children : List QuotaTree} (h : children.Pairwise InOrder) {c : QuotaTree}
    (hc : c ∈ children) (howes : c.quota.taken < c.quota.min) :
    (children.map fun c => c.quota.taken).sum < (children.map fun c => c.quota.min).sum := by
  induction children with
  | nil => exact absurd hc (by simp)
  | cons d children ih =>
    obtain ⟨hd, hrest⟩ := List.pairwise_cons.mp h
    simp only [List.map_cons, List.sum_cons]
    rcases List.mem_cons.mp hc with rfl | hc
    · have hle : (children.map fun c => c.quota.taken).sum ≤
          (children.map fun c => c.quota.min).sum :=
        List.sum_le_sum fun d' hd' => (hd d' hd').2 howes
      omega
    · have hlt := ih hrest hc
      have hzero := (hd c hc).1 howes
      omega

/-- A tree that has reached its minimum has reached every minimum below. -/
theorem Steady.meetsMin {t : QuotaTree} (hr : Everywhere RangeFits t) (hs : Everywhere Steady t)
    (h : MeetsMin t) : Everywhere MeetsMin t := by
  induction t with
  | leaf q bank => exact .leaf h
  | branch q children ih =>
    refine .branch h fun c hc => ih c hc (hr.child hc) (hs.child hc) ?_
    -- one open minimum leaves the branch below its own
    by_contra hopen
    have hlt := sum_taken_lt hs.root.inOrder hc (Nat.not_le.mp hopen)
    have hsum : q.taken = (children.map fun c => c.quota.taken).sum := hs.root.takesSum
    have hfit := hr.root.1
    have hmin : q.min ≤ q.taken := h
    omega

/-- What the leaves have taken together, the root has taken. -/
theorem sum_taken_leaves {t : QuotaTree} (h : Everywhere TakesSum t) :
    (t.leaves.map fun l => l.quota.taken).sum = t.quota.taken := by
  induction t with
  | leaf q bank => simp [leaves]
  | branch q children ih =>
    have hroot : q.taken = (children.map fun c => c.quota.taken).sum := h.root
    rw [sum_leaves_branch, quota_branch, hroot]
    exact congrArg List.sum (List.map_congr_left fun c hc => ih c hc (h.child hc))

/-! ## Progress -/

/-- A tree whose ranges fit takes one more question as long as it is not full. -/
theorem takeOne_ok {ρ : Type} [Draws ρ] {t : QuotaTree} (hr : Everywhere RangeFits t)
    (hs : Everywhere Steady t) (room : t.quota.taken < t.quota.max) :
    ∀ r : ρ, (takeOne t r).result = .ok () := by
  induction t with
  | leaf q bank =>
    intro r
    rw [takeOne, if_pos (by simpa [Quota.canGrow] using room)]
  | branch q children ih =>
    intro r
    have hroom : q.taken < q.max := room
    rcases target_cases children r with
      ⟨before, child, after, r', rfl, ht, chosen⟩ | ⟨r', _, hfull⟩
    · have hmem : child ∈ before ++ child :: after := by simp
      have hchild : child.quota.taken < child.quota.max := by
        rcases chosen with ⟨howes, _⟩ | ⟨hchild, _⟩
        · exact Nat.lt_of_lt_of_le howes (hr.child hmem).root.min_le_max
        · exact hchild
      have hok := ih child hmem (hr.child hmem) (hs.child hmem) hchild r'
      rw [takeOne_branch hroom ht]
      cases hc : takeOne child r' with
      | mk result child' r'' =>
        rw [hc] at hok
        obtain rfl : result = .ok () := hok
        rfl
    · -- full children have taken all that the branch may ask for
      have hle : (children.map fun c => c.quota.max).sum ≤
          (children.map fun c => c.quota.taken).sum :=
        List.sum_le_sum fun c hc => (hfull c hc).2
      have hsum : q.taken = (children.map fun c => c.quota.taken).sum := hs.root.takesSum
      have hfit := hr.root.2.2
      omega

/-- From a steady tree whose ranges fit, as many questions can be taken as there is room for. -/
theorem take_ok {ρ : Type} [Draws ρ] : ∀ (n : Nat) {t : QuotaTree} (r : ρ),
    Everywhere RangeFits t → Everywhere Steady t → t.quota.taken + n ≤ t.quota.max →
      (take n t r).result = .ok () := by
  intro n
  induction n with
  | zero => intro t r _ _ _; rfl
  | succ n ih =>
    intro t r hr hs hle
    have hok := takeOne_ok hr hs (by omega) r
    rcases takeOne_cases t r with ⟨_, hgrows⟩ | ⟨e, herr, _⟩
    · have htaken := hgrows.taken_eq
      have hmax := (quota_eq_of_reset_eq hgrows.reset_eq).2.2
      rw [take_succ_of_ok hok]
      exact ih _ (rangeFits_of_reset_eq hgrows.reset_eq hr) (hgrows.steady hs) (by omega)
    · rw [hok] at herr
      exact absurd herr (by simp)

/-- A tree whose ranges fit can be filled to the amounts of its range and to no other. -/
theorem fillTo_ok_iff {ρ : Type} [Draws ρ] {t : QuotaTree} (hr : Everywhere RangeFits t)
    (hs : Everywhere Steady t) (amount : Nat) (r : ρ) :
    (fillTo amount t r).result = .ok () ↔ t.quota.min ≤ amount ∧ amount ≤ t.quota.max := by
  by_cases hrange : t.quota.min ≤ amount ∧ amount ≤ t.quota.max
  · have hmax : t.quota.taken ≤ t.quota.max := hs.root.withinMax
    rw [fillTo, if_pos hrange]
    exact iff_of_true (take_ok _ r hr hs (by omega)) hrange
  · rw [fillTo, if_neg hrange]
    exact iff_of_false (by simp) hrange

/-! ## Every state reached -/

/-- In every state that calls on the root of a tree with fitting ranges reach, every branch has
taken what its children have taken, no node has taken more than its maximum, and once the root has
its minimum every node has its own. The root takes one more question exactly if it is below its
maximum, and otherwise the error names the root; it can be filled to exactly the amounts of its
range. -/
theorem reached_of_rangeFits {ρ : Type} [Draws ρ] {start t : QuotaTree}
    (hfit : start.Everywhere RangeFits) (h : Reached ρ start t) :
    t.Everywhere TakesSum ∧ t.Everywhere WithinMax ∧
    (t.quota.min ≤ t.quota.taken → t.Everywhere MeetsMin) ∧
    ∀ r : ρ,
      (t.takeOne r).result = (if t.quota.taken < t.quota.max then .ok ()
        else .error (.cannotGrow t.quota.label t.quota.max)) ∧
      ∀ amount, (t.fillTo amount r).result = .ok () ↔
        start.quota.min ≤ amount ∧ amount ≤ start.quota.max := by
  obtain ⟨hs, hsame⟩ :=
    h.of_grows (steady_reset start) fun _ _ ht hgrows => hgrows.steady ht
  have hr : Everywhere RangeFits t := rangeFits_of_reset_eq hsame hfit
  obtain ⟨_, hmin, hmax⟩ := quota_eq_of_reset_eq hsame
  refine ⟨hs.mono fun _ hu => hu.takesSum, hs.mono fun _ hu => hu.withinMax,
    Steady.meetsMin hr hs, fun r => ⟨?_, fun amount => ?_⟩⟩
  · rcases Nat.lt_or_ge t.quota.taken t.quota.max with room | full
    · rw [if_pos room]
      exact takeOne_ok hr hs room r
    · rw [if_neg (Nat.not_lt.mpr full), takeOne_full full]
  · rw [← hmin, ← hmax]
    exact fillTo_ok_iff hr hs amount r

/-- Questions with one tag. -/
def tagged (tag : String) (titles : List String) : List Question :=
  titles.map fun title => (Question.titled title).withTag tag

/-- The tree of `2-4: [{a: *}, {b: *}]` and `c: 1` over three questions `a`, two `b` and one `c`. -/
def sampleTree : QuotaTree :=
  branch { label := "DICT[ARRAY[a,...],...]", min := 3, max := 5 } [
    branch { label := "ARRAY[a,...]", min := 2, max := 4 } [
      leaf { label := "a", min := 0, max := 3 } (tagged "a" ["a0", "a1", "a2"]),
      leaf { label := "b", min := 0, max := 2 } (tagged "b" ["b0", "b1"])],
    leaf { label := "c", min := 1, max := 1 } (tagged "c" ["c0"])]

def sampleSource : Stepping := { word := 0, step := 1 }

/-- The sample tree, filled to four questions from its start. -/
def sampleFilled : QuotaTree :=
  (GrowthCall.run (.fillTo 4) sampleTree.reset sampleSource).tree

theorem reached_sampleFilled :
    sampleTree.Everywhere RangeFits ∧ Reached Stepping sampleTree sampleFilled ∧
    sampleFilled.quota.taken = 4 ∧ sampleFilled.Everywhere TakesSum ∧
    sampleFilled.Everywhere WithinMax ∧ sampleFilled.Everywhere MeetsMin ∧
    (sampleFilled.takeOne sampleSource).result = .ok () ∧
    (sampleFilled.fillTo 5 sampleSource).result = .ok () := by
  have hfit : sampleTree.Everywhere RangeFits := by
    simp [sampleTree, everywhere_branch, everywhere_leaf, RangeFits]
  have hreached : Reached Stepping sampleTree sampleFilled :=
    .call .start (.fillTo 4) sampleSource
  have htaken : sampleFilled.quota.taken = 4 := rfl
  obtain ⟨hsum, hmax, hmin, hcalls⟩ := reached_of_rangeFits hfit hreached
  obtain ⟨hone, hfill⟩ := hcalls sampleSource
  refine ⟨hfit, hreached, htaken, hsum, hmax, hmin (by decide), ?_, (hfill 5).mpr (by decide)⟩
  rw [hone, if_pos (by decide)]

end QuotaTree

end ExamPaper
