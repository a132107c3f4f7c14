import ExamPaper.Proofs.Quota.Tree
import ExamPaper.Quota.Growth

/-!
# What one more question does to a quota tree

`takeOne` unfolds a choice among the children at every branch on the way down. Everything it can do
is said once here, as a relation:

> `Grows t t'`: one more question was taken at the nodes of one path from the root of `t` to a leaf,
> each of which had room, and every child on it was `Chosen` among its siblings.

`takeOne_cases` is the only proof that looks into the recursion: a call either fails and leaves the
tree as it was, or succeeds and the tree grows. Invariants are shown for `Grows` and carried to
every state that calls on the root can reach by `Reached.of_grows`.
-/

namespace ExamPaper

namespace QuotaTree

theorem canGrow_iff {t : QuotaTree} : t.canGrow = true ↔ t.quota.taken < t.quota.max := by
  simp [canGrow, Quota.canGrow]

theorem hasToGrow_iff {t : QuotaTree} : t.hasToGrow = true ↔ t.quota.taken < t.quota.min := by
  simp [hasToGrow, Quota.hasToGrow]

/-! ## The choice among the children -/

/-- How a child stands among its siblings when it takes the next question: either it is the last
one below its minimum, or no minimum is open and it has room. -/
def Chosen (before : List QuotaTree) (child : QuotaTree) (after : List QuotaTree) : Prop :=
  (child.quota.taken < child.quota.min ∧ ∀ c ∈ after, c.quota.min ≤ c.quota.taken) ∨
  (child.quota.taken < child.quota.max ∧
    ∀ c ∈ before ++ child :: after, c.quota.min ≤ c.quota.taken)

/-- No child is owed anything if all minimums are met. -/
theorem lastOwing_eq_none {ts : List QuotaTree} :
    lastOwing ts = none ↔ ∀ t ∈ ts, t.quota.min ≤ t.quota.taken := by
  induction ts with
  | nil => simp [lastOwing]
  | cons t ts ih =>
    rw [List.forall_mem_cons, ← ih, lastOwing]
    cases hl : lastOwing ts with
    | some k => simp
    | none =>
      by_cases ht : t.hasToGrow = true
      · have howes := hasToGrow_iff.mp ht
        rw [if_pos ht]
        exact iff_of_false (Option.some_ne_none 0) fun h => by omega
      · have hmet := mt hasToGrow_iff.mpr ht
        rw [if_neg ht]
        exact iff_of_true rfl ⟨by omega, rfl⟩

/-- The position found is that of the last tree below its minimum. -/
theorem lastOwing_eq_some {ts : List QuotaTree} {k : Nat} (h : lastOwing ts = some k) :
    ∃ before child after, ts = before ++ child :: after ∧ before.length = k ∧
      child.quota.taken < child.quota.min ∧ ∀ c ∈ after, c.quota.min ≤ c.quota.taken := by
  induction ts generalizing k with
  | nil => simp [lastOwing] at h
  | cons t ts ih =>
    rw [lastOwing] at h
    cases hl : lastOwing ts with
    | some j =>
      -- a later tree owes
      rw [hl] at h
      obtain ⟨before, child, after, hts, hlen, howes, hafter⟩ := ih hl
      refine ⟨t :: before, child, after, by rw [hts]; rfl, ?_, howes, hafter⟩
      rw [List.length_cons, hlen]
      exact Option.some.inj h
    | none =>
      rw [hl] at h
      by_cases ht : t.hasToGrow = true
      · simp only [ht, if_true, Option.some.injEq] at h
        exact ⟨[], t, ts, rfl, h, hasToGrow_iff.mp ht, lastOwing_eq_none.mp hl⟩
      · simp [ht] at h

/-- No child can take more if all maximums are reached. -/
theorem growableFrom_eq_nil {ts : List QuotaTree} :
    ∀ {k : Nat}, growableFrom k ts = [] ↔ ∀ t ∈ ts, t.quota.max ≤ t.quota.taken := by
  induction ts with
  | nil => simp [growableFrom]
  | cons t ts ih =>
    intro k
    rw [growableFrom, List.forall_mem_cons]
    by_cases ht : t.canGrow = true
    · have hroom := canGrow_iff.mp ht
      rw [if_pos ht]
      exact iff_of_false (List.cons_ne_nil _ _) fun h => by omega
    · have hfull := mt canGrow_iff.mpr ht
      rw [if_neg ht, ih]
      exact ⟨fun h => ⟨by omega, h⟩, fun h => h.2⟩

/-- A position that may be chosen is that of a child with room. -/
theorem mem_growableFrom {ts : List QuotaTree} {i : Nat} :
    ∀ {k : Nat}, i ∈ growableFrom k ts → ∃ before child after,
      ts = before ++ child :: after ∧ k + before.length = i ∧
        child.quota.taken < child.quota.max := by
  induction ts with
  | nil => intro k h; simp [growableFrom] at h
  | cons t ts ih =>
    intro k h
    rw [growableFrom] at h
    have later : i ∈ growableFrom (k + 1) ts → ∃ before child after,
        t :: ts = before ++ child :: after ∧ k + before.length = i ∧
          child.quota.taken < child.quota.max := by
      intro hi
      obtain ⟨before, child, after, hts, hlen, hroom⟩ := ih hi
      exact ⟨t :: before, child, after, by rw [hts]; rfl, by rw [List.length_cons]; omega, hroom⟩
    by_cases ht : t.canGrow = true
    · rw [if_pos ht] at h
      rcases List.mem_cons.mp h with rfl | hi
      · exact ⟨[], t, ts, rfl, rfl, canGrow_iff.mp ht⟩
      · exact later hi
    · rw [if_neg ht] at h
      exact later h

variable {ρ : Type} [Draws ρ]

/-- What `target` answers: the position of a chosen child, or none because no child is below its
minimum and none has room. -/
theorem target_cases (ts : List QuotaTree) (r : ρ) :
    (∃ before child after r', ts = before ++ child :: after ∧
      target ts r = (some before.length, r') ∧ Chosen before child after) ∨
    ∃ r', target ts r = (none, r') ∧
      ∀ t ∈ ts, t.quota.min ≤ t.quota.taken ∧ t.quota.max ≤ t.quota.taken := by
  unfold target
  cases hl : lastOwing ts with
  | some k =>
    obtain ⟨before, child, after, hts, hlen, howes, hafter⟩ := lastOwing_eq_some hl
    exact Or.inl ⟨before, child, after, r, hts, by rw [hlen], Or.inl ⟨howes, hafter⟩⟩
  | none =>
    have hmet := lastOwing_eq_none.mp hl
    cases hg : growableFrom 0 ts with
    | nil =>
      have hfull := growableFrom_eq_nil.mp hg
      exact Or.inr ⟨r, rfl, fun t ht => ⟨hmet t ht, hfull t ht⟩⟩
    | cons k ks =>
      -- the draw stays below the number of candidates, so it names one of them
      have hlt : (Draws.below (ks.length + 1) r).1 < (k :: ks).length :=
        Draws.below_lt r (Nat.succ_pos _)
      have hmem : (k :: ks)[(Draws.below (ks.length + 1) r).1] ∈ growableFrom 0 ts := by
        rw [hg]
        exact List.getElem_mem hlt
      obtain ⟨before, child, after, hts, hlen, hroom⟩ := mem_growableFrom hmem
      have hget : (k :: ks)[(Draws.below (ks.length + 1) r).1]? = some before.length := by
        rw [List.getElem?_eq_getElem hlt, ← hlen, Nat.zero_add]
      exact Or.inl ⟨before, child, after, (Draws.below (ks.length + 1) r).2, hts,
        Prod.ext hget rfl, Or.inr ⟨hroom, hts ▸ hmet⟩⟩

/-! ## One question more -/

/-- One more question was taken at the nodes of one path from the root to a leaf. -/
inductive Grows : QuotaTree → QuotaTree → Prop where
  | leaf {q : Quota} {bank : List Question} (room : q.taken < q.max) :
      Grows (leaf q bank) (leaf q.grown bank)
  | branch {q : Quota} {before after : List QuotaTree} {child child' : QuotaTree}
      (room : q.taken < q.max) (chosen : Chosen before child after) (grows : Grows child child') :
      Grows (branch q (before ++ child :: after)) (branch q.grown (before ++ child' :: after))

theorem Grows.quota_eq {t t' : QuotaTree} (h : Grows t t') : t'.quota = t.quota.grown := by
  cases h <;> rfl

/-- A tree that grows has taken one more. -/
theorem Grows.taken_eq {t t' : QuotaTree} (h : Grows t t') :
    t'.quota.taken = t.quota.taken + 1 := by
  rw [h.quota_eq]; rfl

/-- Only a tree with room grows. -/
theorem Grows.room {t t' : QuotaTree} (h : Grows t t') : t.quota.taken < t.quota.max := by
  cases h with
  | leaf room => exact room
  | branch room _ _ => exact room

/-- Growing changes nothing but the numbers taken. -/
theorem Grows.reset_eq {t t' : QuotaTree} (h : Grows t t') : t'.reset = t.reset := by
  induction h with
  | leaf _ => rfl
  | branch _ _ _ ih =>
    rw [reset_branch, reset_branch, List.map_append, List.map_append, List.map_cons,
      List.map_cons, ih]
    rfl

/-- Taking one more at a position changes the child there and nothing else. -/
theorem takeOneAt_length (before : List QuotaTree) (child : QuotaTree) (after : List QuotaTree)
    (r : ρ) :
    takeOneAt before.length (before ++ child :: after) r =
      ((takeOne child r).result, before ++ (takeOne child r).tree :: after,
        (takeOne child r).rng) := by
  induction before with
  | nil => rfl
  | cons b before ih => rw [List.length_cons, List.cons_append, takeOneAt, ih]; rfl

/-- A branch with room hands the question to the child that `target` names, and counts it if the
child could take it. -/
theorem takeOne_branch {q : Quota} {before after : List QuotaTree} {child : QuotaTree} {r r' : ρ}
    (room : q.taken < q.max)
    (ht : target (before ++ child :: after) r = (some before.length, r')) :
    takeOne (branch q (before ++ child :: after)) r =
      match takeOne child r' with
      | ⟨.ok (), child', r''⟩ => ⟨.ok (), branch q.grown (before ++ child' :: after), r''⟩
      | ⟨.error e, child', r''⟩ => ⟨.error e, branch q (before ++ child' :: after), r''⟩ := by
  rw [takeOne, if_pos (by simpa [Quota.canGrow] using room), ht]
  simp only [takeOneAt_length]
  cases takeOne child r' with
  | mk result child' r'' => cases result <;> rfl

/-- A tree that has taken its maximum refuses and stays as it is. -/
theorem takeOne_full {t : QuotaTree} (h : t.quota.max ≤ t.quota.taken) (r : ρ) :
    takeOne t r = ⟨.error (.cannotGrow t.quota.label t.quota.max), t, r⟩ := by
  cases t with
  | leaf q bank => rw [takeOne, if_neg (by simpa [Quota.canGrow] using h)]; rfl
  | branch q children => rw [takeOne, if_neg (by simpa [Quota.canGrow] using h)]; rfl

/-- A question that can be taken makes the tree grow; one that cannot leaves it as it was. -/
theorem takeOne_cases (t : QuotaTree) : ∀ r : ρ,
    ((takeOne t r).result = .ok () ∧ Grows t (takeOne t r).tree) ∨
    ∃ e, (takeOne t r).result = .error e ∧ (takeOne t r).tree = t := by
  induction t with
  | leaf q bank =>
    intro r
    rcases Nat.lt_or_ge q.taken q.max with room | full
    · rw [takeOne, if_pos (by simpa [Quota.canGrow] using room)]
      exact Or.inl ⟨rfl, .leaf room⟩
    · rw [takeOne_full (by exact full)]
      exact Or.inr ⟨_, rfl, rfl⟩
  | branch q children ih =>
    intro r
    rcases Nat.lt_or_ge q.taken q.max with room | full
    · rcases target_cases children r with
        ⟨before, child, after, r', rfl, ht, chosen⟩ | ⟨r', ht, _⟩
      · -- the child named either grows or stays as it was
        have hchild := ih child (by simp) r'
        rw [takeOne_branch room ht]
        cases hc : takeOne child r' with
        | mk result child' r'' =>
          rw [hc] at hchild
          rcases hchild with ⟨hok, hgrows⟩ | ⟨e, herr, hsame⟩
          · obtain rfl : result = .ok () := hok
            exact Or.inl ⟨rfl, .branch room chosen hgrows⟩
          · obtain rfl : result = .error e := herr
            obtain rfl : child' = child := hsame
            exact Or.inr ⟨e, rfl, rfl⟩
      · -- no child is named
        rw [takeOne, if_pos (by simpa [Quota.canGrow] using room), ht]
        exact Or.inr ⟨_, rfl, rfl⟩
    · rw [takeOne_full (by exact full)]
      exact Or.inr ⟨_, rfl, rfl⟩

/-! ## Every state that calls on the root reach -/

/-- A call on the root of a tree. -/
inductive GrowthCall where
  | takeOne
  | fillTo (amount : Nat)
  | reset

/-- What a call leaves behind. -/
def GrowthCall.run : GrowthCall → QuotaTree → ρ → Filled ρ
  | .takeOne, t, r => t.takeOne r
  | .fillTo amount, t, r => t.fillTo amount r
  | .reset, t, r => ⟨.ok (), t.reset, r⟩

/-- The states of a tree after any calls, successful or not, on the root of a tree with nothing
taken. Each call may be given any state of the random source. -/
inductive Reached (ρ : Type) [Draws ρ] (start : QuotaTree) : QuotaTree → Prop where
  | start : Reached ρ start start.reset
  | call {t : QuotaTree} (reached : Reached ρ start t) (c : GrowthCall) (r : ρ) :
      Reached ρ start (c.run t r).tree

theorem take_succ_of_ok {n : Nat} {t : QuotaTree} {r : ρ} (h : (takeOne t r).result = .ok ()) :
    take (n + 1) t r = take n (takeOne t r).tree (takeOne t r).rng := by
  rw [take]
  cases hc : takeOne t r with
  | mk result t' r' =>
    rw [hc] at h
    obtain rfl : result = .ok () := h
    rfl

/-- The first question that cannot be taken ends the filling. -/
theorem take_succ_of_error {n : Nat} {t : QuotaTree} {r : ρ} {e : QuotaError}
    (h : (takeOne t r).result = .error e) : take (n + 1) t r = takeOne t r := by
  rw [take]
  cases hc : takeOne t r with
  | mk result t' r' =>
    rw [hc] at h
    obtain rfl : result = .error e := h
    rfl

/-- What growing keeps, taking any number of questions keeps. -/
theorem take_of_grows {P : QuotaTree → Prop} (hstep : ∀ t t', P t → Grows t t' → P t') :
    ∀ (n : Nat) {t : QuotaTree} (r : ρ), P t → P (take n t r).tree := by
  intro n
  induction n with
  | zero => intro t r ht; exact ht
  | succ n ih =>
    intro t r ht
    rcases takeOne_cases t r with ⟨hok, hgrows⟩ | ⟨e, herr, hsame⟩
    · rw [take_succ_of_ok hok]
      exact ih _ (hstep _ _ ht hgrows)
    · rw [take_succ_of_error herr, hsame]
      exact ht

/-- Each question taken counts one at the root. -/
theorem take_taken : ∀ (n : Nat) {t : QuotaTree} {r : ρ}, (take n t r).result = .ok () →
    (take n t r).tree.quota.taken = t.quota.taken + n := by
  intro n
  induction n with
  | zero => intro t r _; rfl
  | succ n ih =>
    intro t r h
    rcases takeOne_cases t r with ⟨hok, hgrows⟩ | ⟨e, herr, _⟩
    · rw [take_succ_of_ok hok] at h ⊢
      rw [ih h, hgrows.taken_eq]
      omega
    · rw [take_succ_of_error herr, herr] at h
      exact absurd h (by simp)

/-- A tree that was filled has at least the amount asked for, and more only if more had been taken
before. -/
theorem fillTo_taken {amount : Nat} {t : QuotaTree} {r : ρ}
    (h : (fillTo amount t r).result = .ok ()) :
    t.quota.min ≤ amount ∧ amount ≤ t.quota.max ∧
      (fillTo amount t r).tree.quota.taken = Nat.max t.quota.taken amount := by
  unfold fillTo at h ⊢
  by_cases hrange : t.quota.min ≤ amount ∧ amount ≤ t.quota.max
  · rw [if_pos hrange] at h ⊢
    refine ⟨hrange.1, hrange.2, ?_⟩
    rw [take_taken _ h]
    show _ = max _ _
    omega
  · rw [if_neg hrange] at h
    exact absurd h (by simp)

/-- What every question taken preserves is preserved by filling, also if that fails. -/
theorem fillTo_of_grows {P : QuotaTree → Prop} (hstep : ∀ t t', P t → Grows t t' → P t')
    (amount : Nat) {t : QuotaTree} (r : ρ) (ht : P t) : P (fillTo amount t r).tree := by
  unfold fillTo
  split
  · exact take_of_grows hstep _ r ht
  · exact ht

/-- **Invariants of a quota tree.** What holds of the tree with nothing taken and is kept when the
tree grows holds in every state reached, and no state reached differs from the tree in more than
the numbers taken. -/
theorem Reached.of_grows {start t : QuotaTree} {P : QuotaTree → Prop} (h0 : P start.reset)
    (hstep : ∀ t t', P t → Grows t t' → P t') (h : Reached ρ start t) :
    P t ∧ t.reset = start.reset := by
  have hstep' : ∀ t t', P t ∧ t.reset = start.reset → Grows t t' →
      P t' ∧ t'.reset = start.reset := by
    intro t t' ht hg
    exact ⟨hstep t t' ht.1 hg, hg.reset_eq.trans ht.2⟩
  induction h with
  | start => exact ⟨h0, by rw [reset_reset]⟩
  | call _ c r ih =>
    cases c with
    | takeOne =>
      rcases takeOne_cases _ r with ⟨_, hgrows⟩ | ⟨e, _, hsame⟩
      · exact hstep' _ _ ih hgrows
      · show P (takeOne _ r).tree ∧ (takeOne _ r).tree.reset = start.reset
        rw [hsame]
        exact ih
    | fillTo amount => exact fillTo_of_grows hstep' amount r ih
    | reset =>
      show P (reset _) ∧ (reset _).reset = start.reset
      rw [reset_reset, ih.2]
      exact ⟨h0, rfl⟩

end QuotaTree

end ExamPaper
