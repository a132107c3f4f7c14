import ExamPaper.Proofs.Selection.Sample
import ExamPaper.Random.Generator
import Mathlib.Data.List.Sublists

/-!
# Drawing some of a bank

A draw of fewer questions than a bank has turns the wheel for each of them. Where it stops is not
known: the shares are added up with rounding, and frequencies need be neither positive nor finite.
That the draw is sound does not depend on it.

> A draw gives as many questions as asked for, from pairwise different positions of the bank, and
> together with those left in the pool they are the bank (`draw_withoutReplacement`).

Some steps of a draw are partial: the last position of a pool, the number that the wheel stops at,
the question at a position. `draw?` carries them out one by one. The first and the last of them
never fail; a number is asked for only if the frequencies of the pool do not add up to zero or less,
so that a source that gives one for every positive and finite total is enough, as long as the totals
are such (`draw?_eq`). A pool whose total is infinite or no number is not `Turnable`: there a source
has no number to give, the program is broken off, and `draw` says nothing about it.
-/

namespace ExamPaper

namespace Sample

/-- What the frequencies of some questions add up to. -/
def weight (pool : List Question) : Float := sumFloats (pool.map (·.frequency))

/-- The wheel can be turned: no number is needed, or it is one below a positive and finite total. -/
def Turnable (pool : List Question) : Prop :=
  weight pool <= 0.0 ∨ (0.0 < weight pool ∧ (weight pool).isFinite = true)

instance (pool : List Question) : Decidable (Turnable pool) :=
  inferInstanceAs (Decidable (_ ∨ _))

/-! ## Draws with every partial step carried out -/

section

variable {ρ : Type}

/-- The position of the question that the wheel stops at. The number is asked from a source that
may have none. -/
def spin? (number? : Float → ρ → Option (Float × ρ)) (pool : List Question) (r : ρ) :
    Option (Nat × ρ) :=
  match pool.length with
  | 0 => none
  | last + 1 =>
    if weight pool <= 0.0 then some (last, r)
    else (number? (weight pool) r).map fun (cursor, r) =>
      (positionFrom cursor 0.0 0 last pool, r)

/-- Draws a number of questions from a pool. -/
def drawFrom? (number? : Float → ρ → Option (Float × ρ)) :
    Nat → List Question → ρ → Option (Drawn ρ)
  | 0, pool, r => some ⟨[], pool, r⟩
  | n + 1, pool, r => do
    let (k, r) ← spin? number? pool r
    let q ← pool[k]?
    let rest ← drawFrom? number? n (pool.eraseIdx k) r
    some { rest with chosen := q :: rest.chosen }

/-- Draws a number of questions from a bank. -/
def draw? (number? : Float → ρ → Option (Float × ρ)) (bank : List Question) (count : Nat) (r : ρ) :
    Option (Except OversizedSample (List Question) × ρ) :=
  if bank.length < count then some (.error ⟨count, bank.length⟩, r)
  else if count = bank.length then some (.ok bank, r)
  else (drawFrom? number? count bank r).map fun drawn => (.ok drawn.chosen, drawn.rng)

end

variable {ρ : Type} [Draws ρ]

/-- Below every positive and finite total the source gives a number, whatever it is. -/
def Gives (number? : Float → ρ → Option (Float × ρ)) : Prop :=
  ∀ (total : Float) (r : ρ), 0.0 < total → total.isFinite = true →
    number? total r = some (Draws.within 0.0 total r)

variable {number? : Float → ρ → Option (Float × ρ)}

/-- No partial step of a turn fails, if the wheel can be turned. -/
theorem spin?_eq (hgives : Gives number?) {pool : List Question} (hne : pool ≠ [])
    (hturn : Turnable pool) (r : ρ) : spin? number? pool r = some (spin pool r) := by
  obtain ⟨last, hlast⟩ : ∃ last, pool.length = last + 1 :=
    Nat.exists_eq_add_one.mpr (List.length_pos_of_ne_nil hne)
  unfold spin? spin
  rw [hlast]
  show (if weight pool <= 0.0 then _ else _) = some (if weight pool <= 0.0 then _ else _)
  by_cases hzero : weight pool <= 0.0
  · rw [if_pos hzero, if_pos hzero]
    rfl
  · rw [if_neg hzero, if_neg hzero]
    obtain ⟨hpos, hfinite⟩ := hturn.resolve_left hzero
    rw [hgives _ r hpos hfinite]
    rfl

/-- The pools that come up are parts of the first one, and never empty before a turn. -/
theorem drawFrom?_eq (hgives : Gives number?) : ∀ {n : Nat} {pool : List Question} (r : ρ),
    n ≤ pool.length → (∀ part, part.Sublist pool → Turnable part) →
      drawFrom? number? n pool r = some (drawFrom n pool r) := by
  intro n
  induction n with
  | zero => intro pool r _ _; rfl
  | succ n ih =>
    intro pool r hn hturn
    have hne : pool ≠ [] := List.ne_nil_of_length_pos (by omega)
    have hk : (spin pool r).1 < pool.length := spin_lt hne r
    have hrest : drawFrom? number? n (pool.eraseIdx (spin pool r).1) (spin pool r).2 =
        some (drawFrom n (pool.eraseIdx (spin pool r).1) (spin pool r).2) := by
      apply ih
      · rw [List.length_eraseIdx_of_lt hk]
        omega
      · intro part hpart
        exact hturn part (hpart.trans (List.eraseIdx_sublist pool _))
    unfold drawFrom? drawFrom
    rw [spin?_eq hgives hne (hturn pool (List.Sublist.refl pool)) r]
    simp only [Option.bind_eq_bind, Option.bind_some, List.getElem?_eq_getElem hk, hrest]

/-- No partial step of a draw fails, if every part of the bank makes a wheel that can be turned. -/
theorem draw?_eq (hgives : Gives number?) {bank : List Question}
    (hturn : ∀ part, part.Sublist bank → Turnable part) (count : Nat) (r : ρ) :
    draw? number? bank count r = some (draw bank count r) := by
  unfold draw? draw
  by_cases hlt : bank.length < count
  · rw [if_pos hlt, if_pos hlt]
  · rw [if_neg hlt, if_neg hlt]
    by_cases heq : count = bank.length
    · rw [if_pos heq, if_pos heq]
    · rw [if_neg heq, if_neg heq, drawFrom?_eq hgives r (Nat.not_lt.mp hlt) hturn]
      rfl

/-! ## What a draw gives -/

/-- As many questions as asked for are chosen, from pairwise different positions of the bank, and
together with those left they are the bank. -/
structure DrawnFrom (bank : List Question) (count : Nat) (d : Drawn ρ) : Prop where
  length_eq : d.chosen.length = count
  distinct : AtDistinctPositions d.chosen bank
  perm : (d.chosen ++ d.pool).Perm bank

/-- Questions are drawn at different positions, in the order of the turns. -/
theorem drawFrom_drawnFrom {bank : List Question} {count : Nat} (h : count ≤ bank.length) (r : ρ) :
    DrawnFrom bank count (drawFrom count bank r) where
  length_eq := drawFrom_length r h
  distinct := by
    apply atDistinctPositions_of_subperm
    exact (List.sublist_append_left _ _).subperm.trans (drawFrom_perm count bank r).subperm
  perm := drawFrom_perm count bank r

/-- **Draws without replacement.** More questions than there are are refused. As many as there are
are the bank in its own order, and none are none; neither takes anything from the source. Fewer are
as many as asked for, from pairwise different positions, and the bank is what is chosen and what is
left, wherever the wheel stops. None of this can fail on the way, if the source gives a number
below every positive and finite total and no frequencies add up to anything infinite or to no
number. -/
theorem draw_withoutReplacement (bank : List Question) (count : Nat) (r : ρ) :
    (bank.length < count → draw bank count r = (.error ⟨count, bank.length⟩, r)) ∧
    (count = bank.length → draw bank count r = (.ok bank, r)) ∧
    (count = 0 → draw bank count r = (.ok [], r)) ∧
    (count < bank.length →
      draw bank count r = (.ok (drawFrom count bank r).chosen, (drawFrom count bank r).rng) ∧
      DrawnFrom bank count (drawFrom count bank r)) ∧
    ∀ number? : Float → ρ → Option (Float × ρ), Gives number? →
      (∀ part, part.Sublist bank → Turnable part) →
        draw? number? bank count r = some (draw bank count r) := by
  refine ⟨?_, ?_, ?_, ?_, fun _ hgives hturn => draw?_eq hgives hturn count r⟩
  · intro hlt
    rw [draw, if_pos hlt]
  · intro heq
    rw [draw, if_neg (by omega), if_pos heq]
  · intro hzero
    subst hzero
    rw [draw, if_neg (Nat.not_lt_zero _)]
    by_cases hempty : 0 = bank.length
    · rw [if_pos hempty, List.length_eq_zero_iff.mp hempty.symm]
    · rw [if_neg hempty]
      rfl
  · intro hlt
    rw [draw, if_neg (by omega), if_neg (by omega)]
    exact ⟨rfl, drawFrom_drawnFrom (Nat.le_of_lt hlt) r⟩

/-- Three questions, one of which is drawn twice as often and one never as long as there are
others. -/
def weightedBank : List Question :=
  [.titled "a0", (Question.titled "a1").withFrequency 2.0, (Question.titled "a2").withFrequency 0.0]

/-- A source that refuses what is no proper range. -/
def properNumber? (total : Float) (r : Stepping) : Option (Float × Stepping) :=
  if 0.0 < total ∧ total.isFinite = true then some (Draws.within 0.0 total r) else none

def firstSource : Stepping := { word := 0, step := 1 }

theorem draw_withoutReplacement_weightedBank :
    2 < weightedBank.length ∧ Gives properNumber? ∧
    (∀ part, part.Sublist weightedBank → Turnable part) ∧
    draw weightedBank 4 firstSource = (.error ⟨4, 3⟩, firstSource) ∧
    draw weightedBank 3 firstSource = (.ok weightedBank, firstSource) ∧
    draw weightedBank 0 firstSource = (.ok [], firstSource) ∧
    DrawnFrom weightedBank 2 (drawFrom 2 weightedBank firstSource) ∧
    draw? properNumber? weightedBank 2 firstSource = some (draw weightedBank 2 firstSource) := by
  have hgives : Gives properNumber? := fun total r hpos hfinite => if_pos ⟨hpos, hfinite⟩
  have hsublists : ∀ part ∈ weightedBank.sublists, Turnable part := by decide +kernel
  have hturn : ∀ part, part.Sublist weightedBank → Turnable part :=
    fun part hpart => hsublists part (List.mem_sublists.mpr hpart)
  have hlt : 2 < weightedBank.length := by decide
  obtain ⟨hover, -⟩ := draw_withoutReplacement weightedBank 4 firstSource
  obtain ⟨-, hwhole, -⟩ := draw_withoutReplacement weightedBank 3 firstSource
  obtain ⟨-, -, hnone, -⟩ := draw_withoutReplacement weightedBank 0 firstSource
  obtain ⟨-, -, -, hpart, hsteps⟩ := draw_withoutReplacement weightedBank 2 firstSource
  exact ⟨hlt, hgives, hturn, hover (by decide), hwhole rfl, hnone rfl, (hpart hlt).2,
    hsteps properNumber? hgives hturn⟩

end Sample

end ExamPaper
