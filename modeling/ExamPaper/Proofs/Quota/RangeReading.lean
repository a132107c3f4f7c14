import ExamPaper.Proofs.Quota.RangeText
import ExamPaper.Quota.Spec

/-!
# Which texts are read as count ranges

`RangeText` says what range a text stands for, however large the numbers in it are. Read are the
texts whose numbers fit: an integer has to fit 64 bits with its sign, and each of two ends 64 bits
without one (`Legible`). Two ends that fit but stand in the wrong order leave no count between them
(`Reversed`).

> Every text is legible, and read as the one range that it stands for, or reversed, and refused for
> being empty, or refused as no count range at all (`parse_legible`).

Whether a text counts as a range or as a tag query is decided before its numbers are read, so
neither a legible nor a reversed text is ever taken for a tag query.
-/

namespace ExamPaper

namespace CountRange

/-- The texts without blanks at their ends that are read as a count range, each with its range. -/
inductive Legible : List Char → CountRange → Prop where
  | star : Legible ['*'] ⟨0, .unbounded⟩
  | plus : Legible ['+'] ⟨1, .unbounded⟩
  | optional : Legible ['?'] ⟨0, .finite 1⟩
  | exactly {cs : List Char} {n : Nat} : IntegerText cs n → fitsSigned n = true →
      Legible cs ⟨n, .finite n⟩
  | negative {cs : List Char} {n : Int} : IntegerText cs n → fitsSigned n = true → n < 0 →
      Legible cs ⟨0, .unbounded⟩
  | atLeast {low : List Char} {min : Nat} : Numeral low min → min < wordLimit →
      Legible (low ++ ['-', '*']) ⟨min, .unbounded⟩
  | between {low high : List Char} {min max : Nat} : Numeral low min → Numeral high max →
      min < wordLimit → max < wordLimit → min ≤ max →
      Legible (low ++ '-' :: high) ⟨min, .finite max⟩

/-- Two ends that fit, the upper one below the lower one. -/
inductive Reversed : List Char → Nat → Nat → Prop where
  | ends {low high : List Char} {min max : Nat} : Numeral low min → Numeral high max →
      min < wordLimit → max < wordLimit → max < min → Reversed (low ++ '-' :: high) min max

variable {source text : String}

/-! ## What is read is legible -/

/-- An integer that fits is a count range. -/
theorem IntegerText.legible {cs : List Char} {n : Int} (h : IntegerText cs n)
    (hfits : fitsSigned n = true) : Legible cs (ofInt n) := by
  unfold ofInt
  split
  · rename_i hn
    obtain ⟨m, rfl⟩ := Int.eq_ofNat_of_zero_le hn
    exact .exactly h hfits
  · rename_i hn
    exact .negative h hfits (Int.not_le.mp hn)

/-- What is found in a text that has the form of a range: a legible text is read, and one that is
refused for being empty is reversed. -/
theorem parseTrimmed_cases (source text : String) :
    match parseTrimmed source text with
    | .ok r => Legible text.toList r
    | .error e => e = .invalidSpec source .notACountRange ∨
        ∃ min max, Reversed text.toList min max ∧ e = .emptyRange text min max := by
  by_cases hstar : text = "*"
  · subst hstar
    exact .star
  by_cases hplus : text = "+"
  · subst hplus
    exact .plus
  by_cases hoptional : text = "?"
  · subst hoptional
    exact .optional
  by_cases hinteger : isIntegerText text.toList = true
  · rw [parseTrimmed_integer hinteger]
    cases hn : Text.int64? text with
    | none => exact Or.inl rfl
    | some n =>
      obtain ⟨htext, hfits⟩ := (int64?_eq_some_iff hinteger).mp hn
      exact htext.legible hfits
  cases hends : ends? text.toList with
  | none =>
    rw [parseTrimmed_of_ne hstar hplus hoptional, if_neg hinteger, hends]
    exact Or.inl rfl
  | some ends =>
    obtain ⟨low, high⟩ := ends
    obtain ⟨htext, hlow, hhigh⟩ := ends?_eq_some_iff.mp hends
    rw [parseTrimmed_ends hends, htext]
    cases hmin : Text.natBelow? wordLimit low with
    | none => exact Or.inl rfl
    | some min =>
      obtain ⟨hmin, hminfits⟩ := (natBelow?_eq_some hlow).mp hmin
      dsimp only
      by_cases hunbounded : high = ['*']
      · rw [if_pos hunbounded, hunbounded]
        exact .atLeast hmin hminfits
      rw [if_neg hunbounded]
      have hdigits := hhigh.resolve_left hunbounded
      cases hmax : Text.natBelow? wordLimit high with
      | none => exact Or.inl rfl
      | some max =>
        obtain ⟨hmax, hmaxfits⟩ := (natBelow?_eq_some hdigits).mp hmax
        dsimp only
        by_cases horder : max < min
        · rw [if_pos horder]
          exact Or.inr ⟨min, max, .ends hmin hmax hminfits hmaxfits horder, rfl⟩
        · rw [if_neg horder]
          exact .between hmin hmax hminfits hmaxfits (Nat.not_lt.mp horder)

/-! ## What is legible is read -/

/-- It is read as the range of just that count. -/
theorem IntegerText.parseTrimmed_eq {n : Int} (h : IntegerText text.toList n)
    (hfits : fitsSigned n = true) : parseTrimmed source text = .ok (ofInt n) := by
  have hinteger := h.isIntegerText
  rw [parseTrimmed_integer hinteger, (int64?_eq_some_iff hinteger).mpr ⟨h, hfits⟩]

/-- A range is cut at the dash between its ends. -/
theorem ends?_numeral {low high : List Char} {min : Nat} {bound : Bound} (hlow : Numeral low min)
    (hhigh : BoundText high bound) : ends? (low ++ '-' :: high) = some (low, high) :=
  ends?_eq_some_iff.mpr ⟨rfl, hlow.isDigits, hhigh.star_or_isDigits⟩

/-- Two ends that are numbers and fit are compared. -/
theorem parseTrimmed_between {low high : List Char} {min max : Nat}
    (htext : text.toList = low ++ '-' :: high) (hlow : Numeral low min) (hhigh : Numeral high max)
    (hmin : min < wordLimit) (hmax : max < wordLimit) :
    parseTrimmed source text =
      if max < min then .error (.emptyRange text min max) else .ok ⟨min, .finite max⟩ := by
  have hstar : high ≠ ['*'] := by
    rintro rfl
    exact absurd hhigh.isDigits (by decide)
  rw [parseTrimmed_ends (by rw [htext]; exact ends?_numeral hlow (.numeral hhigh)),
    (natBelow?_eq_some hlow.isDigits).mpr ⟨hlow, hmin⟩]
  dsimp only
  rw [if_neg hstar, (natBelow?_eq_some hhigh.isDigits).mpr ⟨hhigh, hmax⟩]

/-- A text that denotes a count range is read as that range. -/
theorem Legible.parseTrimmed_eq {r : CountRange} (h : Legible text.toList r) :
    parseTrimmed source text = .ok r := by
  generalize htext : text.toList = cs at h
  cases h with
  | star =>
    obtain rfl : text = "*" := String.toList_inj.mp htext
    rfl
  | plus =>
    obtain rfl : text = "+" := String.toList_inj.mp htext
    rfl
  | optional =>
    obtain rfl : text = "?" := String.toList_inj.mp htext
    rfl
  | exactly hn hfits =>
    subst htext
    exact hn.parseTrimmed_eq hfits
  | negative hn hfits hnegative =>
    subst htext
    rw [hn.parseTrimmed_eq hfits]
    unfold ofInt
    rw [if_neg (Int.not_le.mpr hnegative)]
  | atLeast hlow hmin =>
    rw [parseTrimmed_ends (by rw [htext]; exact ends?_numeral hlow .star),
      (natBelow?_eq_some hlow.isDigits).mpr ⟨hlow, hmin⟩]
    rfl
  | between hlow hhigh hmin hmax horder =>
    rw [parseTrimmed_between htext hlow hhigh hmin hmax, if_neg (Nat.not_lt.mpr horder)]

/-- A range whose ends are in the wrong order is refused as empty. -/
theorem Reversed.parseTrimmed_eq {min max : Nat} (h : Reversed text.toList min max) :
    parseTrimmed source text = .error (.emptyRange text min max) := by
  generalize htext : text.toList = cs at h
  cases h with
  | ends hlow hhigh hmin hmax horder =>
    rw [parseTrimmed_between htext hlow hhigh hmin hmax, if_pos horder]

/-! ## The outcomes of reading -/

/-- Just the texts that denote a count range are read. -/
theorem parse_eq_ok_iff {r : CountRange} :
    parse text = .ok r ↔ Legible (Text.trim text).toList r := by
  constructor
  · intro h
    have hcases := parseTrimmed_cases text (Text.trim text)
    rwa [show parseTrimmed text (Text.trim text) = .ok r from h] at hcases
  · intro h
    exact h.parseTrimmed_eq

/-- Just those with ends in the wrong order are refused as empty. -/
theorem parse_eq_emptyRange_iff {label : String} {min max : Nat} :
    parse text = .error (.emptyRange label min max) ↔
      label = Text.trim text ∧ Reversed (Text.trim text).toList min max := by
  constructor
  · intro h
    have hcases := parseTrimmed_cases text (Text.trim text)
    rw [show parseTrimmed text (Text.trim text) = .error (.emptyRange label min max) from h]
      at hcases
    obtain hinvalid | ⟨_, _, hreversed, hempty⟩ := hcases
    · exact absurd hinvalid (by simp)
    · cases hempty
      exact ⟨rfl, hreversed⟩
  · rintro ⟨rfl, h⟩
    exact h.parseTrimmed_eq

/-- All others are refused as no count range. -/
theorem parse_eq_invalidSpec_iff :
    parse text = .error (.invalidSpec text .notACountRange) ↔
      (∀ r, ¬ Legible (Text.trim text).toList r) ∧
      ∀ min max, ¬ Reversed (Text.trim text).toList min max := by
  constructor
  · intro h
    refine ⟨fun r hr => ?_, fun min max hreversed => ?_⟩
    · exact absurd (h.symm.trans (parse_eq_ok_iff.mpr hr)) (by simp)
    · exact absurd (h.symm.trans (parse_eq_emptyRange_iff.mpr ⟨rfl, hreversed⟩)) (by simp)
  · rintro ⟨hlegible, hreversed⟩
    have hcases := parseTrimmed_cases text (Text.trim text)
    unfold parse
    cases hread : parseTrimmed text (Text.trim text) with
    | ok r =>
      rw [hread] at hcases
      exact absurd hcases (hlegible r)
    | error e =>
      rw [hread] at hcases
      obtain rfl | ⟨min, max, h, -⟩ := hcases
      · rfl
      · exact absurd h (hreversed min max)

/-! ## Count ranges and tag queries -/

/-- A text without the form of a range is refused, whatever its numbers. -/
theorem parseTrimmed_of_not_isRangeText (h : isRangeText text = false) :
    parseTrimmed source text = .error (.invalidSpec source .notACountRange) := by
  unfold isRangeText at h
  simp only [Bool.or_eq_false_iff, beq_eq_false_iff_ne] at h
  obtain ⟨⟨⟨⟨hstar, hplus⟩, hoptional⟩, hinteger⟩, hends⟩ := h
  have hnone : ends? text.toList = none := by simpa using hends
  rw [parseTrimmed_of_ne hstar hplus hoptional, if_neg (by rw [hinteger]; decide), hnone]

/-- A text of the form of a range is taken for a range in a specification. -/
theorem ofValue_of_isRangeText (h : isRangeText (Text.trim text) = true) :
    QuotaSpec.ofValue (.text text) = .ok (.range (Text.trim text)) := by
  have hne : (Text.trim text).isEmpty = false := by
    rw [String.isEmpty_eq_false_iff]
    intro hempty
    rw [hempty] at h
    exact absurd h (by decide)
  show QuotaSpec.ofText (.text text) text = _
  unfold QuotaSpec.ofText
  dsimp only
  rw [hne, h]
  rfl

/-- What is read or refused for being empty is written as a count range. -/
theorem ofValue_of_parse (h : (∃ r, parse text = .ok r) ∨
    ∃ label min max, parse text = .error (.emptyRange label min max)) :
    QuotaSpec.ofValue (.text text) = .ok (.range (Text.trim text)) := by
  refine ofValue_of_isRangeText (Bool.of_not_eq_false fun hform => ?_)
  have hinvalid : parse text = .error (.invalidSpec text .notACountRange) :=
    parseTrimmed_of_not_isRangeText hform
  rw [hinvalid] at h
  obtain ⟨r, h⟩ | ⟨label, min, max, h⟩ := h
  · exact absurd h (by simp)
  · exact absurd h (by simp)

/-- **Which texts are count ranges.** Without the blanks at its ends, a text that is legible is read
as the range that it stands for, one that is reversed is refused for being empty, and every other
one is refused as no count range: also one that has only its numbers too large, or its digits from
another script than ASCII. Legible and reversed texts are count ranges in a specification, too, and
never tag queries. -/
theorem parse_legible (text : String) :
    (∀ r, parse text = .ok r ↔ Legible (Text.trim text).toList r) ∧
    (∀ label min max, parse text = .error (.emptyRange label min max) ↔
      label = Text.trim text ∧ Reversed (Text.trim text).toList min max) ∧
    (parse text = .error (.invalidSpec text .notACountRange) ↔
      (∀ r, ¬ Legible (Text.trim text).toList r) ∧
      ∀ min max, ¬ Reversed (Text.trim text).toList min max) ∧
    ((∃ r, parse text = .ok r) ∨
        (∃ label min max, parse text = .error (.emptyRange label min max)) →
      QuotaSpec.ofValue (.text text) = .ok (.range (Text.trim text))) :=
  ⟨fun _ => parse_eq_ok_iff, fun _ _ _ => parse_eq_emptyRange_iff, parse_eq_invalidSpec_iff,
    ofValue_of_parse⟩

example : parse " -0 " = .ok ⟨0, .finite 0⟩ := by cbv

example : parse "٣-٤" = .error (.invalidSpec "٣-٤" .notACountRange) := by cbv

end CountRange

end ExamPaper
