import ExamPaper.Proofs.Quota.Parts
import Mathlib.Data.List.TakeWhile
import Mathlib.Data.Nat.Digits.Defs

/-!
# How count ranges are written

`CountRange.parse` tells the ways to write a count range apart one after another, and gives up on
numbers that do not fit a word. `RangeText` lists the ways side by side, each with the range that it
stands for:

> Where `parse` gives a range, this is the one that the text is a way to write (`parse_ok`).

So what is said of written ranges needs no parser: `*` is any number, `+` at least one, `a-*` at
least `a`, and so on.
-/

namespace ExamPaper

/-! ## Numerals -/

/-- One or more ASCII digits, and the number that they stand for. -/
structure Numeral (cs : List Char) (n : Nat) : Prop where
  ne_nil : cs ≠ []
  digits : ∀ c ∈ cs, c.isDigit = true
  value : n = Nat.ofDigits 10 (cs.reverse.map fun c => c.toNat - '0'.toNat)

/-- A numeral has the form of a count. -/
theorem Numeral.decimalDigits {cs : List Char} {n : Nat} (h : Numeral cs n) :
    ∀ c ∈ cs, isDecimalDigit c = true :=
  fun c hc => isDecimalDigit_of_isDigit (h.digits c hc)

theorem Numeral.isDigits {cs : List Char} {n : Nat} (h : Numeral cs n) :
    CountRange.isDigits cs = true := by
  unfold CountRange.isDigits
  rw [Bool.and_eq_true, List.all_eq_true]
  exact ⟨by simpa using h.ne_nil, h.decimalDigits⟩

theorem Numeral.exists_cons {cs : List Char} {n : Nat} (h : Numeral cs n) :
    ∃ c rest, cs = c :: rest ∧ c.isDigit = true := by
  cases cs with
  | nil => exact absurd rfl h.ne_nil
  | cons c rest => exact ⟨c, rest, rfl, h.digits c List.mem_cons_self⟩

/-- A numeral denotes one number. -/
theorem Numeral.unique {cs : List Char} {m n : Nat} (hm : Numeral cs m) (hn : Numeral cs n) :
    m = n :=
  hm.value.trans hn.value.symm

namespace Text

/-- Reading digits from the left is their value in base ten, on top of what has been read. -/
theorem digitsFrom_eq_some {cs : List Char} {n : Nat} : ∀ {acc : Nat},
    digitsFrom acc cs = some n ↔ (∀ c ∈ cs, c.isDigit = true) ∧
      n = Nat.ofDigits 10 (cs.reverse.map fun c => c.toNat - '0'.toNat) +
        10 ^ cs.length * acc := by
  induction cs with
  | nil =>
    intro acc
    show some acc = some n ↔ _
    rw [Option.some.injEq, eq_comm]
    simp
  | cons c cs ih =>
    intro acc
    unfold digitsFrom
    by_cases hc : c.isDigit = true
    · rw [if_pos hc, ih, List.forall_mem_cons, List.reverse_cons, List.map_append,
        Nat.ofDigits_append, List.length_map, List.length_reverse, List.map_singleton,
        Nat.ofDigits_singleton, List.length_cons, pow_succ]
      -- the value so far moves up by as many places as there are digits left
      have hvalue : 10 ^ cs.length * (10 * acc + (c.toNat - 48)) =
          10 ^ cs.length * (c.toNat - '0'.toNat) + 10 ^ cs.length * 10 * acc := by
        rw [Nat.mul_add, Nat.add_comm, Nat.mul_assoc]
        rfl
      rw [hvalue, ← Nat.add_assoc]
      exact ⟨fun h => ⟨⟨hc, h.1⟩, h.2⟩, fun h => ⟨h.1.2, h.2⟩⟩
    · rw [if_neg hc]
      simp [hc]

/-- Just the numerals are read as numbers. -/
theorem digits?_eq_some {cs : List Char} {n : Nat} : digits? cs = some n ↔ Numeral cs n := by
  cases cs with
  | nil => exact ⟨fun h => absurd h (by simp [digits?]), fun h => absurd rfl h.ne_nil⟩
  | cons c cs =>
    show digitsFrom 0 (c :: cs) = some n ↔ _
    rw [digitsFrom_eq_some, Nat.mul_zero, Nat.add_zero]
    exact ⟨fun h => ⟨by simp, h.1, h.2⟩, fun h => ⟨h.digits, h.value⟩⟩

/-- A text that starts with a digit of any script has no sign. -/
theorem natBelow?_eq_digits? {limit : Nat} {cs : List Char}
    (h : CountRange.isDigits cs = true) :
    natBelow? limit cs = (digits? cs).filter (· < limit) := by
  unfold natBelow?
  split
  · rename_i cs
    have hplus : CountRange.isDigits ('+' :: cs) = false := rfl
    exact absurd h (by rw [hplus]; decide)
  · rfl

end Text

namespace CountRange

/-! ## Integers -/

/-- ASCII digits with or without a minus sign, and the integer that they stand for. -/
inductive IntegerText : List Char → Int → Prop where
  | plain {cs : List Char} {n : Nat} : Numeral cs n → IntegerText cs n
  | minus {cs : List Char} {n : Nat} : Numeral cs n → IntegerText ('-' :: cs) (-n)

/-- An integer with a minus sign is the negative of a numeral. -/
theorem integerText_minus_iff {cs : List Char} {n : Int} :
    IntegerText ('-' :: cs) n ↔ ∃ m : Nat, Numeral cs m ∧ n = -m := by
  constructor
  · intro h
    cases h with
    | plain hm => exact absurd (hm.digits '-' List.mem_cons_self) (by decide)
    | minus hm => exact ⟨_, hm, rfl⟩
  · rintro ⟨m, hm, rfl⟩
    exact .minus hm

/-- An integer without a sign is a numeral. -/
theorem integerText_digits_iff {cs : List Char} (hcs : isDigits cs = true) {n : Int} :
    IntegerText cs n ↔ ∃ m : Nat, Numeral cs m ∧ n = m := by
  constructor
  · intro h
    cases h with
    | plain hm => exact ⟨_, hm, rfl⟩
    | minus hm => exact absurd hcs (by simp [isDigits, isDecimalDigit, digitZeros])
  · rintro ⟨m, hm, rfl⟩
    exact .plain hm

/-- The text of an integer has the form of one. -/
theorem IntegerText.isIntegerText {cs : List Char} {n : Int} (h : IntegerText cs n) :
    isIntegerText cs = true := by
  cases h with
  | plain hm =>
    obtain ⟨c, rest, rfl, hc⟩ := hm.exists_cons
    unfold CountRange.isIntegerText
    split
    · rename_i hminus
      obtain rfl := (List.cons.inj hminus).1
      exact absurd hc (by decide)
    · exact hm.isDigits
  | minus hm => exact hm.isDigits

/-- The text of an integer denotes one integer. -/
theorem IntegerText.unique {cs : List Char} {m n : Int} (hm : IntegerText cs m)
    (hn : IntegerText cs n) : m = n := by
  cases hm with
  | plain hm =>
    obtain ⟨_, hn', rfl⟩ := (integerText_digits_iff hm.isDigits).mp hn
    rw [hm.unique hn']
  | minus hm =>
    obtain ⟨_, hn', rfl⟩ := integerText_minus_iff.mp hn
    rw [hm.unique hn']

/-- A count is read from a numeral below the limit. -/
theorem natBelow?_eq_some {limit : Nat} {cs : List Char} (hcs : isDigits cs = true) {n : Nat} :
    Text.natBelow? limit cs = some n ↔ Numeral cs n ∧ n < limit := by
  rw [Text.natBelow?_eq_digits? hcs, Option.filter_eq_some_iff, Text.digits?_eq_some,
    decide_eq_true_eq]

/-- A negative integer may be as far from zero as the limit. -/
theorem intWithin?_minus_eq_some {limit : Nat} {cs : List Char} {n : Int} :
    Text.intWithin? limit ('-' :: cs) = some n ↔
      ∃ m : Nat, (Numeral cs m ∧ m ≤ limit) ∧ n = -m := by
  have hfound (m : Nat) : (Text.digits? cs).filter (· ≤ limit) = some m ↔
      Numeral cs m ∧ m ≤ limit := by
    rw [Option.filter_eq_some_iff, Text.digits?_eq_some, decide_eq_true_eq]
  unfold Text.intWithin?
  constructor
  · intro h
    obtain ⟨k, hk, rfl⟩ := Option.map_eq_some_iff.mp h
    obtain ⟨m, hm, hmk⟩ := Option.bind_eq_some_iff.mp hk
    obtain rfl := Option.some.inj hmk
    exact ⟨m, (hfound m).mp hm, rfl⟩
  · rintro ⟨m, hm, rfl⟩
    simp only [(hfound m).mpr hm]
    rfl

/-- A text of the form of an integer is read if the integer fits. -/
theorem int64?_eq_some_iff {text : String} (h : isIntegerText text.toList = true) {n : Int} :
    Text.int64? text = some n ↔ IntegerText text.toList n ∧ fitsSigned n = true := by
  have hfits : fitsSigned n = true ↔ -(signedLimit : Int) ≤ n ∧ n < (signedLimit : Int) := by
    simp [fitsSigned]
  have hlimit : 0 < signedLimit := by decide
  unfold Text.int64?
  unfold isIntegerText at h
  rw [hfits]
  split at h
  · rename_i cs hcs
    rw [hcs, intWithin?_minus_eq_some, integerText_minus_iff]
    constructor
    · rintro ⟨m, ⟨hm, hle⟩, rfl⟩
      exact ⟨⟨m, hm, rfl⟩, by omega⟩
    · rintro ⟨⟨m, hm, rfl⟩, hle⟩
      exact ⟨m, ⟨hm, by omega⟩, rfl⟩
  · rename_i hsign
    have hplain : Text.intWithin? signedLimit text.toList =
        (Text.natBelow? signedLimit text.toList).map Int.ofNat := by
      unfold Text.intWithin?
      split
      · rename_i hcs
        exact absurd hcs (hsign _)
      · rfl
    rw [hplain, integerText_digits_iff h, Option.map_eq_some_iff]
    simp only [natBelow?_eq_some h]
    constructor
    · rintro ⟨m, ⟨hm, hlt⟩, rfl⟩
      exact ⟨⟨m, hm, rfl⟩, by simp only [Int.ofNat_eq_natCast]; omega⟩
    · rintro ⟨⟨m, hm, rfl⟩, hlt⟩
      exact ⟨m, ⟨hm, by omega⟩, rfl⟩

/-! ## The ways to write a range -/

/-- How the upper end of a range is written. -/
inductive BoundText : List Char → Bound → Prop where
  | star : BoundText ['*'] .unbounded
  | numeral {cs : List Char} {n : Nat} : Numeral cs n → BoundText cs (.finite n)

/-- An upper end has the form of a star or of a count. -/
theorem BoundText.star_or_isDigits {cs : List Char} {b : Bound} (h : BoundText cs b) :
    cs = ['*'] ∨ isDigits cs = true := by
  cases h with
  | star => exact Or.inl rfl
  | numeral hn => exact Or.inr hn.isDigits

/-- The text of an upper end denotes one end. -/
theorem BoundText.unique {cs : List Char} {b b' : Bound} (h : BoundText cs b)
    (h' : BoundText cs b') : b = b' := by
  cases h with
  | star =>
    cases h' with
    | star => rfl
    | numeral hn => exact absurd hn.isDigits (by decide)
  | numeral hn =>
    cases h' with
    | star => exact absurd hn.isDigits (by decide)
    | numeral hn' => rw [hn.unique hn']

/-- How a range is written, without blanks at its ends. -/
inductive RangeText : List Char → CountRange → Prop where
  | star : RangeText ['*'] ⟨0, .unbounded⟩
  | plus : RangeText ['+'] ⟨1, .unbounded⟩
  | optional : RangeText ['?'] ⟨0, .finite 1⟩
  | numeral {cs : List Char} {n : Nat} : Numeral cs n → RangeText cs ⟨n, .finite n⟩
  | minusZero {cs : List Char} : Numeral cs 0 → RangeText ('-' :: cs) ⟨0, .finite 0⟩
  | negative {cs : List Char} {n : Nat} : Numeral cs n → 0 < n →
      RangeText ('-' :: cs) ⟨0, .unbounded⟩
  | interval {low high : List Char} {min : Nat} {max : Bound} : Numeral low min →
      BoundText high max → max.Admits min → RangeText (low ++ '-' :: high) ⟨min, max⟩

/-- A range that can be written is not empty. -/
theorem RangeText.contains_min {cs : List Char} {r : CountRange} (h : RangeText cs r) :
    r.Contains r.min := by
  refine ⟨Nat.le_refl _, ?_⟩
  cases h with
  | star => trivial
  | plus => trivial
  | optional => exact Nat.zero_le 1
  | numeral _ => exact Nat.le_refl _
  | minusZero _ => exact Nat.le_refl _
  | negative _ _ => trivial
  | interval _ _ hadmits => exact hadmits

/-- The text of an integer is that of the range of this count. -/
theorem IntegerText.rangeText {cs : List Char} {n : Int} (h : IntegerText cs n) :
    RangeText cs (ofInt n) := by
  cases h with
  | plain hn => exact .numeral hn
  | @minus _ n hn =>
    cases n with
    | zero => exact .minusZero hn
    | succ n => exact .negative hn (Nat.succ_pos n)

/-! ## Reading -/

variable {source text : String}

/-- A text that is none of the three signs is an integer or has two ends. -/
theorem parseTrimmed_of_ne (hstar : text ≠ "*") (hplus : text ≠ "+") (hoptional : text ≠ "?") :
    parseTrimmed source text =
      if isIntegerText text.toList then
        match Text.int64? text with
        | some n => .ok (ofInt n)
        | none => .error (.invalidSpec source .notACountRange)
      else match ends? text.toList with
        | none => .error (.invalidSpec source .notACountRange)
        | some (low, high) =>
          match Text.natBelow? wordLimit low with
          | none => .error (.invalidSpec source .notACountRange)
          | some min =>
            if high = ['*'] then .ok ⟨min, .unbounded⟩
            else match Text.natBelow? wordLimit high with
              | none => .error (.invalidSpec source .notACountRange)
              | some max =>
                if max < min then .error (.emptyRange text min max) else .ok ⟨min, .finite max⟩ := by
  unfold parseTrimmed
  split
  · exact absurd rfl hstar
  · exact absurd rfl hplus
  · exact absurd rfl hoptional
  · rfl

/-- None of the three signs is an integer. -/
theorem parseTrimmed_integer (h : isIntegerText text.toList = true) :
    parseTrimmed source text = match Text.int64? text with
      | some n => .ok (ofInt n)
      | none => .error (.invalidSpec source .notACountRange) := by
  have hstar : text ≠ "*" := by rintro rfl; exact absurd h (by decide)
  have hplus : text ≠ "+" := by rintro rfl; exact absurd h (by decide)
  have hoptional : text ≠ "?" := by rintro rfl; exact absurd h (by decide)
  rw [parseTrimmed_of_ne hstar hplus hoptional, if_pos h]

/-- A text is cut into two ends if it is two forms of ends with a dash between them. -/
theorem ends?_eq_some_iff {cs low high : List Char} :
    ends? cs = some (low, high) ↔
      cs = low ++ '-' :: high ∧ isDigits low = true ∧ (high = ['*'] ∨ isDigits high = true) := by
  have hdash : isDecimalDigit '-' = false := by decide
  have hbound : (high == ['*'] || isDigits high) = true ↔ high = ['*'] ∨ isDigits high = true := by
    rw [Bool.or_eq_true, beq_iff_eq]
  unfold ends?
  constructor
  · intro h
    dsimp only at h
    split at h
    · rename_i rest hrest
      split at h
      · rename_i hends
        rw [Option.some.injEq, Prod.mk.injEq] at h
        obtain ⟨rfl, rfl⟩ := h
        rw [Bool.and_eq_true, hbound] at hends
        refine ⟨?_, ?_, hends.2⟩
        · rw [← hrest, List.takeWhile_append_dropWhile]
        · unfold isDigits
          rw [hends.1, Bool.true_and, List.all_eq_true]
          exact fun c hc => List.mem_takeWhile_imp hc
      · exact absurd h (by simp)
    · exact absurd h (by simp)
  · rintro ⟨rfl, hlow, hhigh⟩
    unfold isDigits at hlow
    obtain ⟨hne, hall⟩ := Bool.and_eq_true_iff.mp hlow
    rw [List.all_eq_true] at hall
    have htake : (low ++ '-' :: high).takeWhile isDecimalDigit = low := by
      rw [List.takeWhile_append_of_pos hall, List.takeWhile_cons_of_neg (by simp [hdash]),
        List.append_nil]
    have hdrop : (low ++ '-' :: high).dropWhile isDecimalDigit = '-' :: high := by
      rw [List.dropWhile_append_of_pos hall, List.dropWhile_cons_of_neg (by simp [hdash])]
    rw [htake, hdrop]
    exact if_pos (Bool.and_eq_true_iff.mpr ⟨hne, hbound.mpr hhigh⟩)

/-- What has two ends has a minus sign after a digit, and is no integer. -/
theorem not_isIntegerText_of_ends? {cs low high : List Char} (h : ends? cs = some (low, high)) :
    ¬ isIntegerText cs = true := by
  obtain ⟨rfl, hlow, -⟩ := ends?_eq_some_iff.mp h
  have hdash : isDecimalDigit '-' = false := by decide
  obtain ⟨hne, hall⟩ := Bool.and_eq_true_iff.mp hlow
  rw [List.all_eq_true] at hall
  unfold isIntegerText
  split
  · rename_i rest hrest
    cases low with
    | nil => exact absurd hne (by decide)
    | cons c low =>
      obtain rfl := (List.cons.inj hrest).1
      exact absurd (hall '-' List.mem_cons_self) (by rw [hdash]; decide)
  · unfold isDigits
    rw [Bool.and_eq_true, List.all_eq_true]
    rintro ⟨-, hdigits⟩
    exact absurd (hdigits '-' (by simp)) (by rw [hdash]; decide)

/-- None of the three signs has two ends. -/
theorem parseTrimmed_ends {low high : List Char} (h : ends? text.toList = some (low, high)) :
    parseTrimmed source text = match Text.natBelow? wordLimit low with
      | none => .error (.invalidSpec source .notACountRange)
      | some min =>
        if high = ['*'] then .ok ⟨min, .unbounded⟩
        else match Text.natBelow? wordLimit high with
          | none => .error (.invalidSpec source .notACountRange)
          | some max =>
            if max < min then .error (.emptyRange text min max) else .ok ⟨min, .finite max⟩ := by
  have hsome : (ends? text.toList).isSome = true := by rw [h]; rfl
  have hstar : text ≠ "*" := by rintro rfl; exact absurd hsome (by decide)
  have hplus : text ≠ "+" := by rintro rfl; exact absurd hsome (by decide)
  have hoptional : text ≠ "?" := by rintro rfl; exact absurd hsome (by decide)
  rw [parseTrimmed_of_ne hstar hplus hoptional, if_neg (not_isIntegerText_of_ends? h), h]

/-- The two ends found are numerals, but for a `*` in the place of the upper one, and in order. -/
theorem interval_of_parseTrimmed {low high : List Char} {r : CountRange}
    (hends : ends? text.toList = some (low, high)) (h : parseTrimmed source text = .ok r) :
    ∃ min max, Numeral low min ∧ BoundText high max ∧ max.Admits min ∧ r = ⟨min, max⟩ := by
  obtain ⟨-, hlow, hhigh⟩ := ends?_eq_some_iff.mp hends
  rw [parseTrimmed_ends hends] at h
  cases hmin : Text.natBelow? wordLimit low with
  | none => rw [hmin] at h; exact absurd h (by simp)
  | some min =>
    have hnumeral : Numeral low min := ((natBelow?_eq_some hlow).mp hmin).1
    simp only [hmin] at h
    by_cases hunbounded : high = ['*']
    · rw [if_pos hunbounded] at h
      exact ⟨min, .unbounded, hnumeral, hunbounded ▸ .star, trivial, (Except.ok.inj h).symm⟩
    · rw [if_neg hunbounded] at h
      cases hmax : Text.natBelow? wordLimit high with
      | none => rw [hmax] at h; exact absurd h (by simp)
      | some max =>
        have hbound : BoundText high (.finite max) :=
          .numeral ((natBelow?_eq_some (hhigh.resolve_left hunbounded)).mp hmax).1
        simp only [hmax] at h
        by_cases hlt : max < min
        · rw [if_pos hlt] at h
          exact absurd h (by simp)
        · rw [if_neg hlt] at h
          exact ⟨min, .finite max, hnumeral, hbound, Nat.not_lt.mp hlt, (Except.ok.inj h).symm⟩

/-- The integer that is read is the one that the text stands for. -/
theorem integer_of_parseTrimmed {r : CountRange} (hinteger : isIntegerText text.toList = true)
    (h : parseTrimmed source text = .ok r) : ∃ n, IntegerText text.toList n ∧ r = ofInt n := by
  rw [parseTrimmed_integer hinteger] at h
  cases hn : Text.int64? text with
  | none => rw [hn] at h; exact absurd h (by simp)
  | some n =>
    rw [hn] at h
    exact ⟨n, ((int64?_eq_some_iff hinteger).mp hn).1, (Except.ok.inj h).symm⟩

/-- What is read is a way to write the range found. -/
theorem rangeText_of_parseTrimmed {r : CountRange} (h : parseTrimmed source text = .ok r) :
    RangeText text.toList r := by
  by_cases hstar : text = "*"
  · subst hstar
    exact Except.ok.inj h ▸ .star
  by_cases hplus : text = "+"
  · subst hplus
    exact Except.ok.inj h ▸ .plus
  by_cases hoptional : text = "?"
  · subst hoptional
    exact Except.ok.inj h ▸ .optional
  by_cases hinteger : isIntegerText text.toList = true
  · obtain ⟨n, hn, rfl⟩ := integer_of_parseTrimmed hinteger h
    exact hn.rangeText
  cases hends : ends? text.toList with
  | none =>
    rw [parseTrimmed_of_ne hstar hplus hoptional, if_neg hinteger, hends] at h
    exact absurd h (by simp)
  | some ends =>
    obtain ⟨low, high⟩ := ends
    obtain ⟨min, max, hlow, hhigh, hadmits, rfl⟩ := interval_of_parseTrimmed hends h
    rw [(ends?_eq_some_iff.mp hends).1]
    exact .interval hlow hhigh hadmits

theorem IntegerText.eq_of_parseTrimmed {n : Int} {r : CountRange} (hn : IntegerText text.toList n)
    (h : parseTrimmed source text = .ok r) : ofInt n = r := by
  obtain ⟨m, hm, rfl⟩ := integer_of_parseTrimmed hn.isIntegerText h
  rw [hn.unique hm]

/-- A text that is a way to write a range is read as that range, if at all. -/
theorem RangeText.eq_of_parseTrimmed {r r' : CountRange} (hw : RangeText text.toList r')
    (h : parseTrimmed source text = .ok r) : r' = r := by
  generalize hcs : text.toList = cs at hw
  cases hw with
  | star =>
    obtain rfl : text = "*" := String.toList_inj.mp hcs
    exact Except.ok.inj h
  | plus =>
    obtain rfl : text = "+" := String.toList_inj.mp hcs
    exact Except.ok.inj h
  | optional =>
    obtain rfl : text = "?" := String.toList_inj.mp hcs
    exact Except.ok.inj h
  | numeral hn =>
    subst hcs
    exact (IntegerText.plain hn).eq_of_parseTrimmed h
  | minusZero hn =>
    have hminus : IntegerText text.toList (-(0 : Nat)) := hcs ▸ .minus hn
    exact hminus.eq_of_parseTrimmed h
  | @negative _ n hn hpos =>
    have hminus : IntegerText text.toList (-n) := hcs ▸ .minus hn
    rw [← hminus.eq_of_parseTrimmed h]
    unfold ofInt
    rw [if_neg (by omega)]
  | @interval low high min max hlow hhigh hadmits =>
    have hends : ends? text.toList = some (low, high) :=
      ends?_eq_some_iff.mpr ⟨hcs, hlow.isDigits, hhigh.star_or_isDigits⟩
    obtain ⟨min', max', hlow', hhigh', -, rfl⟩ := interval_of_parseTrimmed hends h
    rw [hlow.unique hlow', hhigh.unique hhigh']

/-- A range that is read from a text is the one that the text is a way to write. -/
theorem parse_ok {text : String} {r : CountRange} (h : parse text = .ok r) (r' : CountRange) :
    RangeText (Text.trim text).toList r' ↔ r' = r := by
  constructor
  · intro hw
    exact hw.eq_of_parseTrimmed h
  · rintro rfl
    exact rangeText_of_parseTrimmed h

end CountRange

end ExamPaper
