import Mathlib

/-!
# The order of the floats

Comparing floats as IEEE 754 has it is no order, since what is no number compares with nothing and
zero comes with two signs. Apart from that it is one: a float has a `key` in a linear order, and

> numbers compare as their keys do (`lt_iff_key`, `le_iff_key`). The sum of finite floats and the
> distance of a number from a finite float are numbers, if perhaps infinite ones
> (`isNaN_foldl_add`, `isNaN_abs_sub`).

So whatever is known of linear orders holds of floats that are numbers once it is read off the keys.
-/

namespace ExamPaper

namespace FloatOrder

open Float.Model Float.Model.UnpackedFloat

/-! ## The key of a float -/

/-- The place of a float in a linear order: its sign and whether it is finite count first, then its
exponent, then its mantissa. Both zeros have one place. -/
def place : UnpackedFloat → ℤ ×ₗ ℤ ×ₗ ℤ
  | .infinity .negative => toLex (-2, toLex (0, 0))
  | .finite .negative m e _ => toLex (-1, toLex (-e, -m))
  | .notANumber | .zero _ => toLex (0, toLex (0, 0))
  | .finite .positive m e _ => toLex (1, toLex (e, m))
  | .infinity .positive => toLex (2, toLex (0, 0))

theorem compare_toLex (a b c a' b' c' : ℤ) :
    compare (toLex (a, toLex (b, c))) (toLex (a', toLex (b', c'))) =
      (compare a a').then ((compare b b').then (compare c c')) := by
  simp [Prod.Lex.compare_def, compareLex, compareOn]

theorem compare_neg (a b : ℤ) : compare (-a) (-b) = (compare a b).swap := by
  rw [← Std.OrientedOrd.eq_swap]
  rcases lt_trichotomy a b with h | rfl | h
  · rw [compare_gt_iff_gt.mpr h, compare_gt_iff_gt]
    omega
  · simp
  · rw [compare_lt_iff_lt.mpr h, compare_lt_iff_lt]
    omega

theorem compare_natCast (m n : ℕ) : compare (m : ℤ) (n : ℤ) = compare m n := by
  rcases lt_trichotomy m n with h | rfl | h
  · rw [compare_lt_iff_lt.mpr h, compare_lt_iff_lt]
    omega
  · simp
  · rw [compare_gt_iff_gt.mpr h, compare_gt_iff_gt]
    omega

/-- Numbers are compared by their places. -/
theorem compare_eq_place {x y : UnpackedFloat} (hx : x.isNaN = false) (hy : y.isNaN = false) :
    x.compare y = some (compare (place x) (place y)) := by
  rcases x with ⟨_ | _⟩ | _ | s | ⟨_ | _, m, e, hm⟩ <;>
    rcases y with ⟨_ | _⟩ | _ | t | ⟨_ | _, n, f, hn⟩ <;>
    first
    | exact absurd hx (by decide)
    | exact absurd hy (by decide)
    | rfl
    | skip
  -- two finite floats of one sign are left
  case finite.negative.finite.negative =>
    simp only [UnpackedFloat.compare, place, compare_toLex, compare_neg, compare_natCast,
      Ordering.swap_then, Std.ReflCmp.compare_self, Ordering.eq_then]
  case finite.positive.finite.positive =>
    simp only [UnpackedFloat.compare, place, compare_toLex, compare_natCast,
      Std.ReflCmp.compare_self, Ordering.eq_then]

/-- The place of a float. -/
def key (x : Float) : ℤ ×ₗ ℤ ×ₗ ℤ := place x.toModel.unpack

/-- On numbers, below is below in the order of keys. -/
theorem lt_iff_key {x y : Float} (hx : x.isNaN = false) (hy : y.isNaN = false) :
    x < y ↔ key x < key y := by
  show x.lt y = true ↔ _
  unfold Float.lt
  rw [decide_eq_true_iff]
  show x.toModel.unpack.lt y.toModel.unpack = true ↔ _
  rw [UnpackedFloat.lt, compare_eq_place hx hy, beq_iff_eq, Option.some.injEq, compare_lt_iff_lt]
  rfl

/-- On numbers, not above is not above in the order of keys. -/
theorem le_iff_key {x y : Float} (hx : x.isNaN = false) (hy : y.isNaN = false) :
    x ≤ y ↔ key x ≤ key y := by
  show x.le y = true ↔ _
  unfold Float.le
  rw [decide_eq_true_iff]
  show x.toModel.unpack.le y.toModel.unpack = true ↔ _
  rw [UnpackedFloat.le, compare_eq_place hx hy, Option.any_some, Ordering.isLE_iff_ne_gt]
  exact compare_le_iff_le

/-- Two numbers are always comparable. -/
theorem not_lt_iff_le {x y : Float} (hx : x.isNaN = false) (hy : y.isNaN = false) :
    ¬ x < y ↔ y ≤ x := by
  rw [lt_iff_key hx hy, le_iff_key hy hx]
  exact not_lt

theorem lt_of_not_le {x y : Float} (hx : x.isNaN = false) (hy : y.isNaN = false) (h : ¬ x ≤ y) :
    y < x := by
  by_contra hlt
  exact h ((not_lt_iff_le hy hx).mp hlt)

theorem le_refl {x : Float} (hx : x.isNaN = false) : x ≤ x :=
  (le_iff_key hx hx).mpr (Std.le_refl _)

theorem le_of_lt {x y : Float} (hx : x.isNaN = false) (hy : y.isNaN = false) (h : x < y) :
    x ≤ y :=
  (le_iff_key hx hy).mpr (Std.le_of_lt ((lt_iff_key hx hy).mp h))

theorem le_trans {x y z : Float} (hx : x.isNaN = false) (hy : y.isNaN = false)
    (hz : z.isNaN = false) (hxy : x ≤ y) (hyz : y ≤ z) : x ≤ z :=
  (le_iff_key hx hz).mpr (Std.le_trans ((le_iff_key hx hy).mp hxy) ((le_iff_key hy hz).mp hyz))

theorem lt_of_lt_of_le {x y z : Float} (hx : x.isNaN = false) (hy : y.isNaN = false)
    (hz : z.isNaN = false) (hxy : x < y) (hyz : y ≤ z) : x < z :=
  (lt_iff_key hx hz).mpr
    (Std.lt_of_lt_of_le ((lt_iff_key hx hy).mp hxy) ((le_iff_key hy hz).mp hyz))

theorem lt_of_le_of_lt {x y z : Float} (hx : x.isNaN = false) (hy : y.isNaN = false)
    (hz : z.isNaN = false) (hxy : x ≤ y) (hyz : y < z) : x < z :=
  (lt_iff_key hx hz).mpr
    (Std.lt_of_le_of_lt ((le_iff_key hx hy).mp hxy) ((lt_iff_key hy hz).mp hyz))

/-! ## Sums and distances are numbers -/

/-- Rounding gives a number. -/
theorem isNaN_round (sign : Sign) (m : ℕ) (e : ℤ) :
    (UnpackedFloat.round Format.binary64 sign m e).isNaN = false := by
  simp only [UnpackedFloat.round, UnpackedFloat.roundWithAccuracy]
  split <;> rfl

/-- A finite number minus a number is a number. -/
theorem isNaN_sub {x y : UnpackedFloat} (hx : x.isFinite = true) (hy : y.isNaN = false) :
    (UnpackedFloat.sub Format.binary64 x y).isNaN = false := by
  cases x with
  | infinity s => exact absurd hx (by simp [UnpackedFloat.isFinite])
  | notANumber => exact absurd hx (by simp [UnpackedFloat.isFinite])
  | zero s =>
    cases y with
    | infinity t => rfl
    | notANumber => exact absurd hy (by simp [UnpackedFloat.isNaN])
    | zero t => cases s <;> cases t <;> rfl
    | finite t n f hn => rfl
  | finite s m e hm =>
    cases y with
    | infinity t => rfl
    | notANumber => exact absurd hy (by simp [UnpackedFloat.isNaN])
    | zero t => rfl
    | finite t n f hn =>
      simp only [UnpackedFloat.sub, UnpackedFloat.normalize]
      split
      · exact isNaN_round ..
      · rfl
      · exact isNaN_round ..

/-- A number plus a finite number is a number. -/
theorem isNaN_add {x y : UnpackedFloat} (hx : x.isNaN = false) (hy : y.isFinite = true) :
    (UnpackedFloat.add Format.binary64 x y).isNaN = false := by
  cases y with
  | infinity t => exact absurd hy (by simp [UnpackedFloat.isFinite])
  | notANumber => exact absurd hy (by simp [UnpackedFloat.isFinite])
  | zero t =>
    cases x with
    | infinity s => rfl
    | notANumber => exact absurd hx (by simp [UnpackedFloat.isNaN])
    | zero s => cases s <;> cases t <;> rfl
    | finite s m e hm => rfl
  | finite t n f hn =>
    cases x with
    | infinity s => rfl
    | notANumber => exact absurd hx (by simp [UnpackedFloat.isNaN])
    | zero s => rfl
    | finite s m e hm =>
      simp only [UnpackedFloat.add, UnpackedFloat.normalize]
      split
      · exact isNaN_round ..
      · rfl
      · exact isNaN_round ..

theorem isNaN_abs {x : UnpackedFloat} (h : x.isNaN = false) : x.abs.isNaN = false := by
  cases x with
  | notANumber => exact h
  | infinity s => rfl
  | zero s => rfl
  | finite s m e hm => rfl

/-- What is finite is a number. -/
theorem isNaN_of_isFinite {x : Float} (h : x.isFinite = true) : x.isNaN = false := by
  have hunpacked : x.toModel.unpack.isFinite = true := h
  show x.toModel.unpack.isNaN = false
  cases hx : x.toModel.unpack with
  | notANumber =>
    rw [hx] at hunpacked
    exact absurd hunpacked (by simp [UnpackedFloat.isFinite])
  | infinity | zero | finite => rfl

/-- What is no number has all bits of the exponent set, and some of the mantissa. -/
theorem of_isNaN_unpack {b : BitVec Format.binary64.numBits}
    (h : (UnpackedFloat.unpack Format.binary64 b).isNaN = true) :
    unpackExponent b = -1#_ ∧ unpackMantissa b ≠ 0#_ := by
  revert h
  fun_cases UnpackedFloat.unpack Format.binary64 b with
  | case1 => intro h; exact absurd h (by simp [UnpackedFloat.isNaN])
  | case2 _ _ hexponent hmantissa => intro _; exact ⟨hexponent, hmantissa⟩
  | case3 => intro h; exact absurd h (by simp [UnpackedFloat.isNaN])
  | case4 => intro h; exact absurd h (by simp [UnpackedFloat.isNaN])
  | case5 => intro h; exact absurd h (by simp [UnpackedFloat.isNaN])

/-- A number that is packed with all bits of the exponent set, for being infinite or too large, has
none of the mantissa set. -/
theorem unpackMantissa_pack {x : UnpackedFloat} (h : x.isNaN = false)
    (hexponent : unpackExponent (UnpackedFloat.pack Format.binary64 x) = -1#_) :
    unpackMantissa (UnpackedFloat.pack Format.binary64 x) = 0#_ := by
  revert h hexponent
  fun_cases UnpackedFloat.pack Format.binary64 x with
  | case1 => intro h; exact absurd h (by decide)
  | case2 s => intro _ _; exact unpackMantissa_packComponents
  | case3 s => intro _ _; exact unpackMantissa_packComponents
  | case4 s m e hm => intro _ _; exact unpackMantissa_packComponents
  | case5 s m e hm _ biased hsmall =>
    intro _ hexponent
    rw [unpackExponent_packComponents] at hexponent
    have hbits : biased % 2 ^ 11 = 2 ^ 11 - 1 := by
      simpa using congrArg BitVec.toNat hexponent
    have hlt : ¬ 2 ^ 11 ≤ biased + 1 := hsmall
    omega
  | case6 s m e hm =>
    intro _ hexponent
    rw [unpackExponent_packComponents] at hexponent
    exact absurd hexponent (by decide)

/-- Packing keeps a number a number. -/
theorem isNaN_pack {x : UnpackedFloat} (h : x.isNaN = false) :
    (Float.Model.pack x).isNaN = false := by
  by_contra hnan
  obtain ⟨hexponent, hmantissa⟩ := of_isNaN_unpack (Bool.eq_true_of_not_eq_false hnan)
  exact hmantissa (unpackMantissa_pack h hexponent)

/-- The distance of a number from a finite float is a number. -/
theorem isNaN_abs_sub {x y : Float} (hx : x.isFinite = true) (hy : y.isNaN = false) :
    (x - y).abs.isNaN = false :=
  isNaN_pack (isNaN_abs (isNaN_pack (isNaN_sub hx hy)))

/-- A sum of finite floats may be too large to be finite, but it is a number. -/
theorem isNaN_foldl_add {xs : List Float} (hxs : ∀ x ∈ xs, x.isFinite = true) :
    ∀ {sum : Float}, sum.isNaN = false → (xs.foldl (· + ·) sum).isNaN = false := by
  induction xs with
  | nil => exact id
  | cons x xs ih =>
    obtain ⟨hx, hxs⟩ := List.forall_mem_cons.mp hxs
    intro sum hsum
    exact ih hxs (isNaN_pack (isNaN_add hsum hx))

end FloatOrder

end ExamPaper
