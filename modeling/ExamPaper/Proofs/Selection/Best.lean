import ExamPaper.Proofs.Float.Order
import ExamPaper.Proofs.Selection.Distinct

/-!
# Which attempt a search ends with

A search keeps the attempt closest to the target and the extremes of what it has seen. It stops at
the first attempt that is close enough, which is then the closest so far, or when its tries are
used up.

> `Summarises`: the statistics of a search hold the number of attempts, the earliest of those that
> come closest, and the least and the greatest difficulty.

One attempt more keeps this (`Summarises.next`), as long as all deviations are numbers. So the loop
ends at the first close attempt or after the last try (`continueFrom_drawn`), and the outcome is
read off there (`search_drawn`). A tree that is not correct is not searched at all, though it may
allow attempts (`search_childless`).
-/

namespace ExamPaper

namespace Search

open QuotaTree

/-! ## The earliest of the closest, and the extremes -/

/-- Among the first `n` values of `f`, that at `k` is a least one, and the first of these. -/
structure EarliestLeast (f : Nat → Float) (n k : Nat) : Prop where
  lt : k < n
  le : ∀ j < n, f k ≤ f j
  first : ∀ j < k, f k < f j

/-- Among the first `n` values of `f`, `x` is one that stands in the relation `R` to them all. -/
structure Extreme (R : Float → Float → Prop) (f : Nat → Float) (n : Nat) (x : Float) : Prop where
  attained : ∃ k < n, x = f k
  bound : ∀ j < n, R x (f j)

/-- What a search has seen after the attempts `a 0`, …, `a (n - 1)`. -/
structure Summarises (p : SearchParams) (a : Nat → Attempt) (n : Nat) (stats : SearchStats) :
    Prop where
  attempts : stats.attempts = n
  best : ∃ k, stats.best = a k ∧ EarliestLeast (fun j => deviation p (a j)) n k
  least : Extreme (· ≤ ·) (fun j => (a j).difficulty) n stats.minDifficulty
  greatest : Extreme (· ≥ ·) (fun j => (a j).difficulty) n stats.maxDifficulty

/-- One value more: the earliest least one stays unless the new one is below it. -/
theorem EarliestLeast.succ {f : Nat → Float} {n k : Nat} (hf : ∀ j ≤ n, (f j).isNaN = false)
    (h : EarliestLeast f n k) : EarliestLeast f (n + 1) (if f n < f k then n else k) := by
  obtain ⟨hk, hle, hfirst⟩ := h
  have hfk : (f k).isNaN = false := hf k (Nat.le_of_lt hk)
  have hfn : (f n).isNaN = false := hf n (Nat.le_refl n)
  by_cases hcloser : f n < f k
  · -- the new value is below the least one, and so below all
    have hall : ∀ j < n, f n < f j := by
      intro j hj
      exact FloatOrder.lt_of_lt_of_le hfn hfk (hf j (Nat.le_of_lt hj)) hcloser (hle j hj)
    rw [if_pos hcloser]
    refine ⟨Nat.lt_succ_self n, fun j hj => ?_, hall⟩
    rcases Nat.lt_succ_iff_lt_or_eq.mp hj with hj | rfl
    · exact FloatOrder.le_of_lt hfn (hf j (Nat.le_of_lt hj)) (hall j hj)
    · exact FloatOrder.le_refl hfn
  · rw [if_neg hcloser]
    refine ⟨Nat.lt_succ_of_lt hk, fun j hj => ?_, hfirst⟩
    rcases Nat.lt_succ_iff_lt_or_eq.mp hj with hj | rfl
    · exact hle j hj
    · exact (FloatOrder.not_lt_iff_le hfn hfk).mp hcloser

/-- An extreme is kept by taking the new value where it goes further. -/
theorem Extreme.succ {R : Float → Float → Prop} {f : Nat → Float} {n : Nat} {x y : Float}
    (h : Extreme R f n x) (hy : y = x ∨ y = f n) (hyn : R y (f n))
    (hyx : ∀ j < n, R x (f j) → R y (f j)) : Extreme R f (n + 1) y := by
  obtain ⟨⟨k, hk, hxk⟩, hbound⟩ := h
  refine ⟨?_, fun j hj => ?_⟩
  · rcases hy with rfl | rfl
    · exact ⟨k, Nat.lt_succ_of_lt hk, hxk⟩
    · exact ⟨n, Nat.lt_succ_self n, rfl⟩
  · rcases Nat.lt_succ_iff_lt_or_eq.mp hj with hj | rfl
    · exact hyx j hj (hbound j hj)
    · exact hyn

/-- One value more: the smaller of it and the least so far is the least. -/
theorem Extreme.smaller {f : Nat → Float} {n : Nat} {x : Float}
    (hf : ∀ j ≤ n, (f j).isNaN = false) (h : Extreme (· ≤ ·) f n x) :
    Extreme (· ≤ ·) f (n + 1) (smaller x (f n)) := by
  obtain ⟨k, hk, hxk⟩ := h.attained
  have hx : x.isNaN = false := hxk ▸ hf k (Nat.le_of_lt hk)
  have hfn : (f n).isNaN = false := hf n (Nat.le_refl n)
  unfold Search.smaller
  by_cases hless : f n < x
  · rw [if_pos (by simp [hless])]
    refine h.succ (Or.inr rfl) (FloatOrder.le_refl hfn) fun j hj hxj => ?_
    exact FloatOrder.le_trans hfn hx (hf j (Nat.le_of_lt hj))
      (FloatOrder.le_of_lt hfn hx hless) hxj
  · rw [if_neg (by rw [hx, Bool.false_or, decide_eq_true_eq]; exact hless)]
    exact h.succ (Or.inl rfl) ((FloatOrder.not_lt_iff_le hfn hx).mp hless) fun _ _ hxj => hxj

/-- One value more: the larger of it and the greatest so far is the greatest. -/
theorem Extreme.larger {f : Nat → Float} {n : Nat} {x : Float}
    (hf : ∀ j ≤ n, (f j).isNaN = false) (h : Extreme (· ≥ ·) f n x) :
    Extreme (· ≥ ·) f (n + 1) (larger x (f n)) := by
  obtain ⟨k, hk, hxk⟩ := h.attained
  have hx : x.isNaN = false := hxk ▸ hf k (Nat.le_of_lt hk)
  have hfn : (f n).isNaN = false := hf n (Nat.le_refl n)
  unfold Search.larger
  by_cases hmore : x < f n
  · rw [if_pos (by simp [hmore])]
    refine h.succ (Or.inr rfl) (FloatOrder.le_refl hfn) fun j hj hxj => ?_
    exact FloatOrder.le_trans (hf j (Nat.le_of_lt hj)) hx hfn hxj
      (FloatOrder.le_of_lt hx hfn hmore)
  · rw [if_neg (by rw [hx, Bool.false_or, decide_eq_true_eq]; exact hmore)]
    exact h.succ (Or.inl rfl) ((FloatOrder.not_lt_iff_le hx hfn).mp hmore) fun _ _ hxj => hxj

/-! ## One attempt and one more -/

variable {p : SearchParams} {a : Nat → Attempt} {n : Nat} {stats : SearchStats}

/-- The deviation of a number from a finite target is a number. -/
theorem isNaN_deviation {b : Attempt} (htarget : p.target.isFinite = true)
    (hb : b.difficulty.isNaN = false) : (deviation p b).isNaN = false :=
  FloatOrder.isNaN_abs_sub htarget hb

/-- After one attempt a search has seen just that attempt. -/
theorem summarises_first (htarget : p.target.isFinite = true)
    (ha : (a 0).difficulty.isNaN = false) : Summarises p a 1 (first (a 0)) := by
  have honly : ∀ j < 1, j = 0 := fun j hj => Nat.lt_one_iff.mp hj
  refine ⟨rfl, ⟨0, rfl, ⟨Nat.one_pos, fun j hj => ?_, fun j hj => absurd hj (Nat.not_lt_zero j)⟩⟩,
    ⟨⟨0, Nat.one_pos, rfl⟩, fun j hj => ?_⟩, ⟨⟨0, Nat.one_pos, rfl⟩, fun j hj => ?_⟩⟩
  · rw [honly j hj]
    exact FloatOrder.le_refl (isNaN_deviation htarget ha)
  · rw [honly j hj]
    exact FloatOrder.le_refl ha
  · rw [honly j hj]
    exact FloatOrder.le_refl ha

/-- One more attempt is summed up with those before. -/
theorem Summarises.next (htarget : p.target.isFinite = true)
    (ha : ∀ j ≤ n, (a j).difficulty.isNaN = false) (h : Summarises p a n stats) :
    Summarises p a (n + 1) (next p stats (a n)) := by
  obtain ⟨hattempts, ⟨k, hbest, hk⟩, hleast, hgreatest⟩ := h
  refine ⟨congrArg (· + 1) hattempts, ?_, hleast.smaller ha, hgreatest.larger ha⟩
  refine ⟨_, ?_, hk.succ fun j hj => isNaN_deviation htarget (ha j hj)⟩
  show (if deviation p (a n) < deviation p stats.best then a n else stats.best) = _
  rw [hbest]
  split <;> rfl

/-! ## The loop -/

/-- The selection is within the tolerance. -/
def Close (p : SearchParams) (b : Attempt) : Prop := deviation p b < p.tolerance

instance (p : SearchParams) (b : Attempt) : Decidable (Close p b) :=
  inferInstanceAs (Decidable (deviation p b < p.tolerance))

/-- The best of the attempts so far, none before the last one being close, is close exactly if the
last one is, and is then the last one. -/
theorem Summarises.best_close (h : Summarises p a (n + 1) stats)
    (htarget : p.target.isFinite = true) (htolerance : p.tolerance.isNaN = false)
    (ha : ∀ j ≤ n, (a j).difficulty.isNaN = false) (hnone : ∀ j < n, ¬ Close p (a j)) :
    (Close p stats.best ↔ Close p (a n)) ∧ (Close p (a n) → stats.best = a n) := by
  obtain ⟨k, hbest, hk⟩ := h.best
  have hkn : k ≤ n := Nat.le_of_lt_succ hk.lt
  have hclose : Close p (a n) → Close p (a k) := by
    intro hn
    exact FloatOrder.lt_of_le_of_lt (isNaN_deviation htarget (ha k hkn))
      (isNaN_deviation htarget (ha n (Nat.le_refl n))) htolerance (hk.le n (Nat.lt_succ_self n)) hn
  have hlast : Close p (a k) → k = n := by
    intro hclose
    by_contra hne
    exact hnone k (by omega) hclose
  rw [hbest]
  refine ⟨⟨fun hc => hlast hc ▸ hc, hclose⟩, fun hn => ?_⟩
  rw [hlast (hclose hn)]

variable {ρ : Type} [Draws ρ] {tree : QuotaTree} {r : ρ}

/-- The random source after `k` attempts. -/
def sourceAfter (tree : QuotaTree) (r : ρ) : Nat → ρ
  | 0 => r
  | k + 1 => (attempt tree (sourceAfter tree r k)).2

/-- The loop ends at the first close attempt or when the tries are used up, and has then seen the
attempts up to that one. -/
theorem continueFrom_drawn (htarget : p.target.isFinite = true)
    (htolerance : p.tolerance.isNaN = false) :
    ∀ (tries : Nat) {n : Nat} {stats : SearchStats},
      (∀ k ≤ n + tries, (attempt tree (sourceAfter tree r k)).1 = .ok (a k)) →
      (∀ k ≤ n + tries, (a k).difficulty.isNaN = false) →
      Summarises p a (n + 1) stats → (∀ j < n, ¬ Close p (a j)) →
      ∃ m stats', m ≤ n + tries ∧
        continueFrom p tree tries stats (sourceAfter tree r (n + 1)) =
          (.ok stats', sourceAfter tree r (m + 1)) ∧
        Summarises p a (m + 1) stats' ∧ (∀ j < m, ¬ Close p (a j)) ∧
        (Close p (a m) ∨ m = n + tries) := by
  intro tries
  induction tries with
  | zero =>
    intro n stats _ _ hstats hnone
    exact ⟨n, stats, Nat.le_refl n, rfl, hstats, hnone, Or.inr rfl⟩
  | succ tries ih =>
    intro n stats hdrawn hnumber hstats hnone
    have hupto : ∀ j ≤ n, (a j).difficulty.isNaN = false :=
      fun j hj => hnumber j (by omega)
    obtain ⟨hbest, -⟩ := hstats.best_close htarget htolerance hupto hnone
    obtain ⟨k, hk, hearliest⟩ := hstats.best
    have hdeviation : (deviation p stats.best).isNaN = false := by
      rw [hk]
      exact isNaN_deviation htarget (hupto k (Nat.le_of_lt_succ hearliest.lt))
    unfold continueFrom
    by_cases hclose : Close p (a n)
    · have hstop : ¬ p.tolerance ≤ deviation p stats.best := by
        rw [← FloatOrder.not_lt_iff_le hdeviation htolerance]
        exact not_not_intro (hbest.mpr hclose)
      rw [if_neg hstop]
      exact ⟨n, stats, by omega, rfl, hstats, hnone, Or.inl hclose⟩
    · have hgo : p.tolerance ≤ deviation p stats.best :=
        (FloatOrder.not_lt_iff_le hdeviation htolerance).mp (mt hbest.mp hclose)
      have hattempt : attempt tree (sourceAfter tree r (n + 1)) =
          (.ok (a (n + 1)), sourceAfter tree r (n + 1 + 1)) :=
        Prod.ext (hdrawn (n + 1) (by omega)) rfl
      rw [if_pos hgo, hattempt]
      have hnext : Summarises p a (n + 1 + 1) (next p stats (a (n + 1))) :=
        hstats.next htarget fun j hj => hnumber j (by omega)
      have hnone' : ∀ j < n + 1, ¬ Close p (a j) := by
        intro j hj
        rcases Nat.lt_succ_iff_lt_or_eq.mp hj with hj | rfl
        · exact hnone j hj
        · exact hclose
      obtain ⟨m, stats', hm, hrun, hsum, hbefore, hend⟩ :=
        ih (fun k hk => hdrawn k (by omega)) (fun k hk => hnumber k (by omega)) hnext hnone'
      exact ⟨m, stats', by omega, hrun, hsum, hbefore, hend.imp_right fun h => by omega⟩

/-! ## The search -/

/-- The difficulty of an attempt is the sum over its questions. -/
theorem eq_attemptOf {b : Attempt} (h : (attempt tree r).1 = .ok b) :
    b = attemptOf b.questions := by
  rw [attempt_eq] at h
  cases hresult : (filledFor tree r).result with
  | error e => rw [hresult] at h; exact absurd h (by simp)
  | ok u =>
    simp only [hresult] at h
    cases hdraws : (drawLeaves (filledFor tree r).tree.leaves (filledFor tree r).rng).1 with
    | error e => rw [hdraws] at h; exact absurd h (by simp [Except.map])
    | ok qs =>
      rw [hdraws] at h
      obtain rfl := Except.ok.inj h
      rfl

/-- If all questions of a tree have finite difficulties, the difficulty of a selection is a
number. -/
theorem isNaN_difficulty {b : Attempt}
    (hbanks : ∀ l ∈ tree.leaves, ∀ q ∈ l.bank, q.difficulty.isFinite = true)
    (h : (attempt tree r).1 = .ok b) : b.difficulty.isNaN = false := by
  obtain ⟨blocks, hquestions, hblocks⟩ :=
    attempt_blocks (R := fun l block => block.Subperm l.bank) (fun _ _ => Iff.rfl) h
      fun _ _ _ hblock => hblock.subperm
  have hfinite : ∀ x ∈ b.questions.map (·.difficulty), x.isFinite = true := by
    rw [hquestions]
    generalize tree.leaves = leaves at hbanks hblocks
    clear hquestions h
    induction hblocks with
    | nil => intro x hx; exact absurd hx List.not_mem_nil
    | cons hblock _ ih =>
      obtain ⟨hl, hleaves⟩ := List.forall_mem_cons.mp hbanks
      rw [List.flatten_cons, List.map_append, List.forall_mem_append]
      refine ⟨?_, ih hleaves⟩
      intro x hx
      obtain ⟨q, hq, rfl⟩ := List.mem_map.mp hx
      exact hl q (hblock.subset hq)
  rw [eq_attemptOf h]
  exact FloatOrder.isNaN_foldl_add hfinite (by decide +kernel)

/-- **Which attempt a search ends with.** On a correct tree, let no attempt fail that the search may
make, the target be finite, and the difficulties and the tolerance be numbers. The search finds the
first attempt within the tolerance and draws nothing after it. If there is none, it makes all its
attempts, at least one, and reports the earliest of the closest and the extremes. -/
theorem search_drawn {N : Nat} (hcorrect : tree.isCorrect = true) (hN : N = max p.tries 1)
    (hdrawn : ∀ k < N, (attempt tree (sourceAfter tree r k)).1 = .ok (a k))
    (htarget : p.target.isFinite = true) (hnumber : ∀ k < N, (a k).difficulty.isNaN = false)
    (htolerance : p.tolerance.isNaN = false) :
    (∀ k < N, Close p (a k) → (∀ j < k, ¬ Close p (a j)) →
      search tree p r = (.ok (.found (a k)), sourceAfter tree r (k + 1))) ∧
    ((∀ k < N, ¬ Close p (a k)) →
      ∃ stats, search tree p r = (.ok (.exhausted stats), sourceAfter tree r N) ∧
        Summarises p a N stats) := by
  have hlast : 0 + (p.tries - 1) + 1 = N := by omega
  have hfirst : Summarises p a 1 (first (a 0)) :=
    summarises_first htarget (hnumber 0 (by omega))
  obtain ⟨m, stats, hm, hrun, hsum, hbefore, hend⟩ :=
    continueFrom_drawn htarget htolerance (p.tries - 1)
      (fun k hk => hdrawn k (by omega)) (fun k hk => hnumber k (by omega)) hfirst
      (fun j hj => absurd hj (Nat.not_lt_zero j))
  have hsearch : search tree p r = (.ok (outcome p stats), sourceAfter tree r (m + 1)) := by
    have hattempt : attempt tree r = (.ok (a 0), sourceAfter tree r 1) :=
      Prod.ext (hdrawn 0 (by omega)) rfl
    unfold search
    rw [firstIncorrect_eq_none_iff.mpr hcorrect, hattempt]
    dsimp only
    rw [show continueFrom p tree (p.tries - 1) (first (a 0)) (sourceAfter tree r 1) = _ from hrun]
  obtain ⟨hbest, hbest_eq⟩ :=
    hsum.best_close htarget htolerance (fun j hj => hnumber j (by omega)) hbefore
  constructor
  · -- both the close attempt and the last one made have none before them
    intro k hk hclose hnone
    have hmk : m = k := by
      rcases Nat.lt_trichotomy m k with hlt | heq | hgt
      · rcases hend with hclose' | hused
        · exact absurd hclose' (hnone m hlt)
        · omega
      · exact heq
      · exact absurd hclose (hbefore k hgt)
    subst hmk
    have hout : outcome p stats = .found (a m) := by
      show (if Close p stats.best then _ else _) = _
      rw [if_pos (hbest.mpr hclose), hbest_eq hclose]
    rw [hsearch, hout]
  · intro hnone
    have hmN : m + 1 = N := by
      rcases hend with hclose | hused
      · exact absurd hclose (hnone m (by omega))
      · omega
    have hout : outcome p stats = .exhausted stats := by
      show (if Close p stats.best then _ else _) = _
      rw [if_neg (mt hbest.mp (hnone m (by omega)))]
    rw [hmN] at hsum hsearch
    exact ⟨stats, by rw [hsearch, hout], hsum⟩

/-! ### Two attempts at one question -/

/-- One of two questions, of difficulties one and three. -/
def pairTree : QuotaTree :=
  leaf { label := "a", min := 1, max := 1 }
    [.titled "a0", (Question.titled "a1").withDifficulty 3.0]

def pairSource : Stepping := { word := 0, step := 0x3000000000000000 }

/-- The selections of the attempts at `pairTree`. -/
def pairAttempt (k : Nat) : Attempt :=
  attemptOf [if k = 0 then .titled "a0" else (Question.titled "a1").withDifficulty 3.0]

theorem search_drawn_pairTree :
    pairTree.isCorrect = true ∧
    (∀ k < 2, (attempt pairTree (sourceAfter pairTree pairSource k)).1 = .ok (pairAttempt k)) ∧
    (∀ k < 2, (pairAttempt k).difficulty.isNaN = false) ∧
    search pairTree ⟨3.0, 0.5, 2⟩ pairSource =
      (.ok (.found (pairAttempt 1)), sourceAfter pairTree pairSource 2) ∧
    ∃ stats, search pairTree ⟨10.0, 0.5, 0⟩ pairSource =
        (.ok (.exhausted stats), sourceAfter pairTree pairSource 1) ∧
      Summarises ⟨10.0, 0.5, 0⟩ pairAttempt 1 stats := by
  have hcorrect : pairTree.isCorrect = true := rfl
  have hdrawn : ∀ k < 2, (attempt pairTree (sourceAfter pairTree pairSource k)).1 =
      .ok (pairAttempt k) := by
    decide +kernel
  have hbanks : ∀ l ∈ pairTree.leaves, ∀ q ∈ l.bank, q.difficulty.isFinite = true := by
    decide +kernel
  have hnumber : ∀ k < 2, (pairAttempt k).difficulty.isNaN = false :=
    fun k hk => isNaN_difficulty hbanks (hdrawn k hk)
  -- the second attempt is the first within the tolerance
  obtain ⟨hfound, -⟩ := search_drawn (p := ⟨3.0, 0.5, 2⟩) (N := 2) hcorrect rfl hdrawn
    (by decide +kernel) hnumber (by decide +kernel)
  -- no tries make one attempt
  obtain ⟨-, hexhausted⟩ := search_drawn (p := ⟨10.0, 0.5, 0⟩) (N := 1) hcorrect rfl
    (fun k hk => hdrawn k (by omega)) (by decide +kernel) (fun k hk => hnumber k (by omega))
    (by decide +kernel)
  exact ⟨hcorrect, hdrawn, hnumber,
    hfound 1 (by decide) (by decide +kernel) (by decide +kernel), hexhausted (by decide +kernel)⟩

/-! ## A tree that is not searched -/

/-- A node with neither questions nor children. -/
def childless : QuotaTree := branch { label := "none", min := 0, max := 0 } []

/-- Nothing can be selected from a node without children, and every attempt does so, right on a
target of zero. A search does not get there: the tree is not correct. -/
theorem search_childless :
    (∀ r : Stepping, ∃ b, (attempt childless r).1 = .ok b ∧ b.difficulty.isFinite = true ∧
      Close ⟨0.0, 1.0, 1⟩ b) ∧
    ∀ r : Stepping,
      search childless ⟨0.0, 1.0, 1⟩ r = (.error (.quota (.incorrectTree "none")), r) := by
  refine ⟨fun r => ⟨attemptOf [], ?_, by decide +kernel, ?_⟩, fun r => rfl⟩
  · have hzero : (Draws.between 0 0 r).1 = 0 :=
      Nat.le_zero.mp (Draws.between_le (Nat.le_refl 0) r)
    have hfilled : filledFor childless r =
        childless.reset.fillTo (Draws.between 0 0 r).1 (Draws.between 0 0 r).2 := rfl
    rw [attempt_eq, hfilled, hzero]
    rfl
  · show (_ : Float) < _
    decide +kernel

end Search

end ExamPaper
