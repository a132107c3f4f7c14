import ExamPaper.Selection.Sample
import Mathlib.Data.List.Nodup
import Mathlib.Data.List.Perm.Subperm

/-!
# Draws without replacement

Wherever the wheel stops, it stops at a question of the pool (`spin_lt`), because the walk over the
shares falls back on the last one. So every turn moves one question from the pool to the questions
chosen, and both together stay a permutation of the pool at the start (`drawFrom_perm`), whatever
the frequencies are and whatever is drawn.

> `draw_ok`: a draw that succeeds gives as many questions as asked for, from pairwise different
> positions of the bank.
-/

namespace ExamPaper

namespace Sample

/-- The elements of `xs` stand at pairwise different positions of `ys`. -/
def AtDistinctPositions {α : Type} (xs ys : List α) : Prop :=
  ∃ ks : List Nat, ks.Nodup ∧ List.Forall₂ (fun k x => ys[k]? = some x) ks xs

/-! ## The wheel -/

/-- The position that the wheel stops at is one of the pool. -/
theorem positionFrom_lt {cursor : Float} {last n : Nat} (hlast : last < n) :
    ∀ {qs : List Question} {passed : Float} {k : Nat}, k + qs.length ≤ n →
      positionFrom cursor passed k last qs < n := by
  intro qs
  induction qs with
  | nil => intro passed k _; exact hlast
  | cons q qs ih =>
    intro passed k hk
    rw [List.length_cons] at hk
    unfold positionFrom
    by_cases hcursor : cursor < passed + q.frequency
    · simp only [hcursor, if_true]
      omega
    · simp only [hcursor, if_false]
      exact ih (by omega)

variable {ρ : Type} [Draws ρ]

/-- So is the one that is found for a turn. -/
theorem spin_lt {pool : List Question} (h : pool ≠ []) (r : ρ) :
    (spin pool r).1 < pool.length := by
  have hlast : pool.length - 1 < pool.length := by
    have := List.length_pos_of_ne_nil h
    omega
  unfold spin
  by_cases htotal : sumFloats (pool.map (·.frequency)) <= 0.0
  · simp only [htotal, if_true]
    exact hlast
  · simp only [htotal, if_false]
    exact positionFrom_lt hlast (by omega)

/-- One turn of the wheel moves a question of the pool to those chosen. -/
theorem drawFrom_succ {n : Nat} {pool : List Question} (h : pool ≠ []) (r : ρ) :
    ∃ (k : Nat) (hk : k < pool.length) (r' : ρ),
      (drawFrom (n + 1) pool r).chosen = pool[k] :: (drawFrom n (pool.eraseIdx k) r').chosen ∧
      (drawFrom (n + 1) pool r).pool = (drawFrom n (pool.eraseIdx k) r').pool := by
  have hk := spin_lt h r
  refine ⟨(spin pool r).1, hk, (spin pool r).2, ?_⟩
  simp only [drawFrom, List.getElem?_eq_getElem hk, and_self]

theorem drawFrom_nil (n : Nat) (r : ρ) :
    (drawFrom n [] r).chosen = [] ∧ (drawFrom n [] r).pool = [] := by
  cases n with
  | zero => exact ⟨rfl, rfl⟩
  | succ n => simp [drawFrom]

/-- The questions chosen and those left are together the pool. -/
theorem drawFrom_perm : ∀ (n : Nat) (pool : List Question) (r : ρ),
    ((drawFrom n pool r).chosen ++ (drawFrom n pool r).pool).Perm pool := by
  intro n
  induction n with
  | zero => intro pool r; exact List.Perm.refl pool
  | succ n ih =>
    intro pool r
    by_cases hnil : pool = []
    · subst hnil
      rw [(drawFrom_nil (n + 1) r).1, (drawFrom_nil (n + 1) r).2]
      exact List.Perm.refl []
    · obtain ⟨k, hk, r', hchosen, hpool⟩ := drawFrom_succ (n := n) hnil r
      rw [hchosen, hpool, List.cons_append]
      exact ((ih (pool.eraseIdx k) r').cons pool[k]).trans (List.getElem_cons_eraseIdx_perm hk)

/-- As many questions are drawn as are asked for, if there are so many. -/
theorem drawFrom_length : ∀ {n : Nat} {pool : List Question} (r : ρ), n ≤ pool.length →
    (drawFrom n pool r).chosen.length = n := by
  intro n
  induction n with
  | zero => intro pool r _; rfl
  | succ n ih =>
    intro pool r hn
    have hnil : pool ≠ [] := List.ne_nil_of_length_pos (by omega)
    obtain ⟨k, hk, r', hchosen, _⟩ := drawFrom_succ (n := n) hnil r
    rw [hchosen, List.length_cons, ih r' (by rw [List.length_eraseIdx_of_lt hk]; omega)]

/-! ## Draws from a bank -/

/-- A draw fails only if there are too few questions. -/
theorem draw_isOk {bank : List Question} {count : Nat} (h : count ≤ bank.length) (r : ρ) :
    ∃ qs, (draw bank count r).1 = .ok qs := by
  unfold draw
  rw [if_neg (Nat.not_lt.mpr h)]
  split
  · exact ⟨bank, rfl⟩
  · exact ⟨_, rfl⟩

/-- A part of a list stands at pairwise different positions of the list, in whatever order. -/
theorem atDistinctPositions_of_subperm {α : Type} {xs ys : List α} (h : xs.Subperm ys) :
    AtDistinctPositions xs ys := by
  obtain ⟨zs, hperm, hsub⟩ := h
  obtain ⟨is, rfl, his⟩ := List.sublist_eq_map_getElem hsub
  have hks : (is.map Fin.val).Nodup :=
    List.Nodup.map (fun _ _ h => Fin.ext h) (his.imp fun hlt => Fin.ne_of_lt hlt)
  have hat : List.Forall₂ (fun k x => ys[k]? = some x) (is.map Fin.val)
      (is.map fun i => ys[i]) := by
    rw [List.forall₂_map_left_iff, List.forall₂_map_right_iff, List.forall₂_same]
    intro i _
    exact List.getElem?_eq_getElem i.isLt
  -- the positions are put into the order of the elements
  have hcomp : Relation.Comp (List.Forall₂ fun k x => ys[k]? = some x) List.Perm
      (is.map Fin.val) xs := ⟨_, hat, hperm⟩
  rw [List.forall₂_comp_perm_eq_perm_comp_forall₂] at hcomp
  obtain ⟨ks, hkperm, hkat⟩ := hcomp
  exact ⟨ks, hkperm.nodup_iff.mp hks, hkat⟩

/-- A draw that succeeds gives as many questions as asked for, and they are a part of the bank. -/
theorem draw_ok {bank qs : List Question} {count : Nat} {r : ρ}
    (h : (draw bank count r).1 = .ok qs) : qs.length = count ∧ qs.Subperm bank := by
  unfold draw at h
  by_cases hlt : bank.length < count
  · rw [if_pos hlt] at h
    exact absurd h (by simp)
  · rw [if_neg hlt] at h
    by_cases heq : count = bank.length
    · -- the whole bank, in its own order
      rw [if_pos heq] at h
      obtain rfl := Except.ok.inj h
      exact ⟨heq.symm, List.Subperm.refl bank⟩
    · rw [if_neg heq] at h
      obtain rfl := Except.ok.inj h
      refine ⟨drawFrom_length r (Nat.not_lt.mp hlt), ?_⟩
      exact (List.sublist_append_left _ _).subperm.trans (drawFrom_perm count bank r).subperm

end Sample

end ExamPaper
