import ExamPaper.Proofs.Template.Checked

/-!
# Random integers

The operator `INT` draws from the numbers that can be reached from a minimum in steps, up to a
maximum. It refuses a step that is not positive, then bounds between which there is no number, then
bounds that are too far apart (`IntRange.RefusedFor`).

> Everything else can be drawn from: whatever index is drawn, nothing overflows on the way to the
> number, which is one of the range; and every number of the range comes of some index
> (`int_drawsOnGrid`). What is refused is an error, and nothing is drawn.
-/

namespace ExamPaper

namespace Template

namespace IntRange

/-- The arguments are the texts of the bounds, and of the step if it is not one. -/
inductive WrittenAs : IntRange → List String → Prop where
  | bounds {minText maxText : String} {min max : Int} :
      Text.int64? (Text.trim minText) = some min → Text.int64? (Text.trim maxText) = some max →
      WrittenAs ⟨min, max, 1⟩ [minText, maxText]
  | stepped {minText maxText stepText : String} {min max step : Int} :
      Text.int64? (Text.trim minText) = some min → Text.int64? (Text.trim maxText) = some max →
      Text.int64? (Text.trim stepText) = some step →
      WrittenAs ⟨min, max, step⟩ [minText, maxText, stepText]

/-- There is something to draw from, and its span fits 64 bits. -/
structure Drawable (range : IntRange) : Prop where
  step_pos : 1 ≤ range.step
  min_le_max : range.min ≤ range.max
  fits : fitsSigned (range.max - range.min) = true

/-- A number is between the bounds, and some steps away from the minimum. -/
def OnGrid (range : IntRange) (v : Int) : Prop :=
  range.min ≤ v ∧ v ≤ range.max ∧ range.step ∣ v - range.min

/-- Why there is nothing to draw from. -/
inductive RefusedFor (range : IntRange) : TemplateError → Prop where
  | step : range.step ≤ 0 → RefusedFor range (.badNumber "INT" (Int.repr range.step))
  | empty : 1 ≤ range.step → range.max < range.min → RefusedFor range (.emptyChoice "INT")
  | wide : 1 ≤ range.step → range.min ≤ range.max → (signedLimit : Int) ≤ range.max - range.min →
      RefusedFor range (.badNumber "INT" (Int.repr range.min ++ ".." ++ Int.repr range.max))

/-! ## Reading the arguments -/

theorem readInt_of_int64? {name text : String} {n : Int}
    (h : Text.int64? (Text.trim text) = some n) : readInt name text = .ok n := by
  unfold readInt
  rw [h]

/-- A range is read from arguments that write it. -/
theorem ofArgs_of_writtenAs {range : IntRange} {args : List String} (h : range.WrittenAs args) :
    ofArgs args = .ok range := by
  cases h with
  | bounds hmin hmax =>
    rw [ofArgs, readInt_of_int64? hmin, readInt_of_int64? hmax]
    rfl
  | stepped hmin hmax hstep =>
    rw [ofArgs, readInt_of_int64? hmin, readInt_of_int64? hmax, readInt_of_int64? hstep]
    rfl

/-! ## The steps of a range -/

variable {range : IntRange}

/-- A range that can be drawn from has a number of steps. -/
theorem Drawable.spans (h : range.Drawable) :
    ∃ count, range.steps = .ok count ∧ range.Spans count := by
  have hsteps : range.steps = .ok ((range.max - range.min) / range.step).toNat := by
    unfold steps
    rw [if_neg (Int.not_le.mpr h.step_pos), if_neg (Int.not_lt.mpr h.min_le_max), if_pos h.fits]
  exact ⟨_, hsteps, spans_of_steps hsteps⟩

/-- The three reasons cover everything that cannot be drawn from. -/
theorem exists_refusedFor (h : ¬ range.Drawable) :
    ∃ e, range.RefusedFor e ∧ range.steps = .error e := by
  unfold steps
  by_cases hstep : range.step ≤ 0
  · rw [if_pos hstep]
    exact ⟨_, .step hstep, rfl⟩
  rw [if_neg hstep]
  by_cases hempty : range.max < range.min
  · rw [if_pos hempty]
    exact ⟨_, .empty (Int.not_le.mp hstep) hempty, rfl⟩
  rw [if_neg hempty]
  have hmin : range.min ≤ range.max := Int.not_lt.mp hempty
  have hwide : fitsSigned (range.max - range.min) ≠ true :=
    fun hfits => h ⟨Int.not_le.mp hstep, hmin, hfits⟩
  rw [if_neg hwide]
  refine ⟨_, .wide (Int.not_le.mp hstep) hmin ?_, rfl⟩
  -- the span is not negative, so it is too large if it does not fit
  rw [ne_eq, fitsSigned_iff] at hwide
  omega

/-- The numbers of a range are those after so many steps. -/
theorem Spans.onGrid_iff {count : Nat} (h : range.Spans count) {v : Int} :
    range.OnGrid v ↔ ∃ k : Nat, k ≤ count ∧ v = range.min + k * range.step := by
  constructor
  · rintro ⟨hmin, hmax, c, hc⟩
    have hpos := h.step_pos
    have hnonneg : 0 ≤ c :=
      Int.le_of_mul_le_mul_left (by omega : range.step * 0 ≤ range.step * c) hpos
    have hle : c ≤ (range.max - range.min) / range.step :=
      (Int.le_ediv_iff_mul_le hpos).mpr (by rw [Int.mul_comm, ← hc]; omega)
    rw [← h.steps_eq] at hle
    refine ⟨c.toNat, by omega, ?_⟩
    rw [Int.toNat_of_nonneg hnonneg, Int.mul_comm, ← hc]
    omega
  · rintro ⟨k, hk, rfl⟩
    obtain ⟨hway, hspan⟩ := h.way_le hk
    refine ⟨by omega, by omega, k, ?_⟩
    rw [Int.mul_comm]
    omega

end IntRange

/-! ## Drawing -/

/-- A source that draws one index for ever, or the last one below a bound that excludes it. -/
structure FixedIndex where
  index : Nat
  deriving DecidableEq, Repr

instance : Draws FixedIndex where
  below n r := (min r.index (n - 1), r)
  within lo _ r := (lo, r)
  below_lt r hn := by
    have hle := Nat.min_le_right r.index
    exact Nat.lt_of_le_of_lt (hle _) (by omega)

namespace Operation

section
variable {ρ : Type} [Draws ρ] {range : IntRange} {args : List String}

/-- `INT` draws the number of steps once. -/
theorem run_int_of_steps (h : IntRange.ofArgs args = .ok range) {count : Nat}
    (hsteps : range.steps = .ok count) (today : String) (s : State) (r : ρ) :
    int.run today s args r =
      (.ok (Int.repr (range.min + (Draws.below (count + 1) r).1 * range.step)),
        (Draws.below (count + 1) r).2) := by
  unfold run
  rw [h]
  dsimp only
  rw [hsteps]

/-- `INT` draws nothing from a range that is refused. -/
theorem run_int_of_refused (h : IntRange.ofArgs args = .ok range) {e : TemplateError}
    (hsteps : range.steps = .error e) (today : String) (s : State) (r : ρ) :
    int.run today s args r = (.error e, r) := by
  unfold run
  rw [h]
  dsimp only
  rw [hsteps]

/-- A number that was drawn is a result, so no partial step has failed. -/
theorem runChecked_int_of_ok {today : String} {s : State} {r r' : ρ} {text : String}
    (h : int.run today s args r = (.ok text, r')) :
    int.runChecked today s args r = .ok (.ok text, r') := by
  rw [runChecked_int, h]
  rfl

end

/-- **Random integers.** Let the arguments be the texts of two bounds, and of a step if it is not
one. If the step is positive, the bounds are in order and their distance fits 64 bits, an index is
drawn from zero up to the number of steps between the bounds. Whatever index that is, the way from
the minimum to the number and the number itself fit 64 bits, so that no partial step fails, and the
result is the text of the number. The numbers are those between the bounds that are some steps away
from the minimum, and each of them is drawn from some source. In every other case there is an error,
for the first reason that applies, and nothing is drawn. -/
theorem int_drawsOnGrid {range : IntRange} {args : List String} (h : range.WrittenAs args)
    (today : String) (s : State) :
    (range.Drawable → ∃ count : Nat, (count : Int) = (range.max - range.min) / range.step ∧
      (∀ {ρ : Type} [Draws ρ] (r : ρ), ∃ k : Nat, k ≤ count ∧
        Draws.below (count + 1) r = (k, (Draws.below (count + 1) r).2) ∧
        int.runChecked today s args r =
          .ok (.ok (Int.repr (range.min + k * range.step)), (Draws.below (count + 1) r).2) ∧
        int.run today s args r =
          (.ok (Int.repr (range.min + k * range.step)), (Draws.below (count + 1) r).2)) ∧
      (∀ k : Nat, k ≤ count → fitsSigned (k * range.step) = true ∧
        fitsSigned (range.min + k * range.step) = true) ∧
      (∀ v, range.OnGrid v ↔ ∃ k : Nat, k ≤ count ∧ v = range.min + k * range.step) ∧
      ∀ v, range.OnGrid v → ∃ r : FixedIndex, int.run today s args r = (.ok (Int.repr v), r)) ∧
    (¬ range.Drawable → ∃ e, range.RefusedFor e ∧
      ∀ {ρ : Type} [Draws ρ] (r : ρ), int.run today s args r = (.error e, r)) := by
  have hargs := IntRange.ofArgs_of_writtenAs h
  constructor
  · intro hdrawable
    obtain ⟨count, hsteps, hspans⟩ := hdrawable.spans
    obtain ⟨hmin, hmax⟩ := IntRange.fits_of_ofArgs hargs
    refine ⟨count, hspans.steps_eq, ?_, fun k => hspans.fits_value hmin hmax,
      fun v => hspans.onGrid_iff, ?_⟩
    · intro ρ _ r
      have hrun := run_int_of_steps hargs hsteps today s r
      exact ⟨_, Nat.le_of_lt_succ (Draws.below_lt r (Nat.succ_pos count)), rfl,
        runChecked_int_of_ok hrun, hrun⟩
    · intro v hv
      obtain ⟨k, hk, rfl⟩ := hspans.onGrid_iff.mp hv
      have hindex : Draws.below (count + 1) (FixedIndex.mk k) = (k, ⟨k⟩) :=
        congrArg (·, _) (Nat.min_eq_left hk)
      refine ⟨⟨k⟩, ?_⟩
      rw [run_int_of_steps hargs hsteps, hindex]
  · intro hrefused
    obtain ⟨e, he, hsteps⟩ := IntRange.exists_refusedFor hrefused
    exact ⟨e, he, run_int_of_refused hargs hsteps today s⟩

/-- The whole lower half of the signed integers and the last one below zero, at the largest distance
that fits. -/
theorem int_drawsOnGrid_lowerHalf :
    let range : IntRange := ⟨-9223372036854775808, -1, 9223372036854775807⟩
    let args := [" -9223372036854775808", "-1", "9223372036854775807"]
    range.WrittenAs args ∧ range.Drawable ∧ range.OnGrid (-1) ∧
    ∃ r : FixedIndex, int.run "" {} args r = (.ok "-1", r) := by
  intro range args
  have hwritten : range.WrittenAs args := .stepped rfl rfl rfl
  have hdrawable : range.Drawable := ⟨by decide, by decide, by decide⟩
  have hgrid : range.OnGrid (-1) := ⟨by decide, by decide, 1, rfl⟩
  obtain ⟨count, -, -, -, -, hreached⟩ := (int_drawsOnGrid hwritten "" {}).1 hdrawable
  exact ⟨hwritten, hdrawable, hgrid, hreached (-1) hgrid⟩

end Operation

end Template

end ExamPaper
