import ExamPaper.Proofs.Text.Blank
import ExamPaper.Text.Integer

/-!
# Integers as they are written

An integer is written in digits, after a minus sign if it is negative.

> Nothing else stands in the text (`mem_repr`), so there is nothing to trim (`trim_repr`), and the
> text is read as the integer again if that fits 64 bits (`int64?_repr`).
-/

namespace ExamPaper

namespace Text

/-! ## Digits -/

/-- Reading digits is reading the number that they are in base ten. -/
theorem digitsFrom_eq {cs : List Char} (h : ∀ c ∈ cs, c.isDigit = true) :
    ∀ acc : Nat, digitsFrom acc cs = some (Nat.ofDigitChars 10 cs acc) := by
  induction cs with
  | nil => intro acc; rfl
  | cons c cs ih =>
    obtain ⟨hc, hcs⟩ := List.forall_mem_cons.mp h
    intro acc
    rw [digitsFrom, if_pos hc, ih hcs]
    rfl

theorem isDigit_toDigits {n : Nat} : ∀ c ∈ Nat.toDigits 10 n, c.isDigit = true :=
  fun _ hc => Nat.isDigit_of_mem_toDigits (by decide) (by decide) hc

/-- The digits of a number are read as it. -/
theorem digits?_toDigits (n : Nat) : digits? (Nat.toDigits 10 n) = some n := by
  have hfrom : digitsFrom 0 (Nat.toDigits 10 n) = some n := by
    rw [digitsFrom_eq isDigit_toDigits, Nat.ofDigitChars_ten_toDigits]
  unfold digits?
  split
  · rename_i hnil
    exact absurd hnil Nat.toDigits_ne_nil
  · exact hfrom

/-! ## Integers -/

/-- A natural number is written in its digits. -/
theorem toList_repr_ofNat (n : Nat) : (Int.repr n).toList = Nat.toDigits 10 n :=
  Nat.toList_repr

/-- A negative integer is written as a sign and the digits of its size. -/
theorem toList_repr_negSucc (n : Nat) :
    (Int.repr (Int.negSucc n)).toList = '-' :: Nat.toDigits 10 (n + 1) := by
  show ("-" ++ Nat.repr (n + 1)).toList = _
  rw [String.toList_append, Nat.toList_repr]
  rfl

/-- A written integer consists of digits and perhaps a minus sign. -/
theorem mem_repr {n : Int} : ∀ c ∈ (Int.repr n).toList, c = '-' ∨ c.isDigit = true := by
  cases n with
  | ofNat n =>
    rw [Int.ofNat_eq_natCast, toList_repr_ofNat]
    exact fun c hc => .inr (isDigit_toDigits c hc)
  | negSucc n =>
    rw [toList_repr_negSucc]
    exact List.forall_mem_cons.mpr ⟨.inl rfl, fun c hc => .inr (isDigit_toDigits c hc)⟩

/-- Without a sign before the digits an integer is read as a natural number. -/
theorem intWithin?_of_digits? {limit : Nat} {cs : List Char} {n : Nat} (h : digits? cs = some n)
    (hn : n < limit) : intWithin? limit cs = some (n : Int) := by
  have hnat : natBelow? limit cs = some n := by
    unfold natBelow?
    split
    · exact absurd h nofun
    · rw [h]
      simp [hn]
  unfold intWithin?
  split
  · exact absurd h nofun
  · rw [hnat]
    rfl

/-- An integer that fits is read back from its text. -/
theorem int64?_repr {n : Int} (h : fitsSigned n = true) : int64? (Int.repr n) = some n := by
  have hfits : -(signedLimit : Int) ≤ n ∧ n < (signedLimit : Int) := by simpa [fitsSigned] using h
  unfold int64?
  cases n with
  | ofNat n =>
    rw [Int.ofNat_eq_natCast, toList_repr_ofNat]
    exact intWithin?_of_digits? (digits?_toDigits n) (Int.ofNat_lt.mp hfits.2)
  | negSucc n =>
    have hle : n + 1 ≤ signedLimit := by omega
    rw [toList_repr_negSucc, intWithin?, digits?_toDigits, Option.filter_some,
      if_pos (decide_eq_true hle)]
    rfl

/-! ## Blanks -/

theorem not_isBlank_of_isDigit {c : Char} (h : c.isDigit = true) : isBlank c = false := by
  have hdigit : 48 ≤ c.toNat ∧ c.toNat ≤ 57 := by
    simpa [Char.isDigit, UInt32.le_iff_toNat_le] using h
  simp only [isBlank, Bool.or_eq_false_iff, Bool.and_eq_false_iff, decide_eq_false_iff_not,
    beq_eq_false_iff_ne]
  omega

/-- The text of an integer has no blanks to trim. -/
theorem trim_repr (n : Int) : trim (Int.repr n) = Int.repr n := by
  have hblank : ∀ c ∈ (Int.repr n).toList, isBlank c = false := by
    intro c hc
    rcases mem_repr c hc with rfl | hdigit
    · rfl
    · exact not_isBlank_of_isDigit hdigit
  unfold trim
  rw [(trimmed_of_not_isBlank hblank).trimChars_eq (padded_self _), String.ofList_toList]

end Text

end ExamPaper
