import ExamPaper.Proofs.Quota.RangeText
import ExamPaper.Quota.Spec

/-!
# The totals that a specification asks for

A specification can be read without building anything: it asks for certain total numbers of
questions. A tag query alone asks for one, a count for what is in its range. A list, or a mapping
with several entries, asks for the sums of what its items ask for, and a range before it for those
of them that are in the range. `Denotes` says which totals these are, rule by rule.

> The rules do not overlap: for each form of a specification, one of them decides its totals
> (`denotes_tagCount_iff` and the like).
-/

namespace ExamPaper

/-- How many questions of a bank satisfy the tag query that a text denotes. -/
def matching (bank : List Question) (text : String) : Nat :=
  bank.countP fun q => TagQuery.textHolds text q.tags = .ok true

namespace QuotaSpec

/-- The range that a count asks for. -/
inductive Ranges : QuotaSpec → CountRange → Prop where
  | exact (n : Nat) : Ranges (.count n) ⟨n, .finite n⟩
  | any {n : Int} : n < 0 → Ranges (.count n) ⟨0, .unbounded⟩
  | text {text : String} {r : CountRange} : CountRange.RangeText (Text.trim text).toList r →
      Ranges (.range text) r

/-- Made up of other specifications. -/
inductive Nested : QuotaSpec → Prop where
  | sequence {items : List QuotaSpec} : Nested (.sequence items)
  | pair {key value : QuotaSpec} : Nested (.pair key value)
  | mapping {pairs : List (QuotaSpec × QuotaSpec)} : Nested (.mapping pairs)

/-- The total numbers of questions that a specification asks for, over a bank. -/
inductive Denotes (bank : List Question) : QuotaSpec → Nat → Prop where
  /-- A count that stands alone asks for its own range. -/
  | range {spec : QuotaSpec} {r : CountRange} {n : Nat} : spec.Ranges r → r.Contains n →
      Denotes bank spec n
  /-- A tag query that stands alone asks for one question. -/
  | tag {text : String} : Denotes bank (.tag text) 1
  /-- A range beside a tag query asks for what it allows of the questions that there are. -/
  | tagCount {text : String} {value : QuotaSpec} {r : CountRange} {n : Nat} : value.Ranges r →
      r.Contains n → n ≤ matching bank text → Denotes bank (.pair (.tag text) value) n
  | countTag {key : QuotaSpec} {text : String} {r : CountRange} {n : Nat} : key.Ranges r →
      r.Contains n → n ≤ matching bank text → Denotes bank (.pair key (.tag text)) n
  /-- A range before a list or mapping asks for what it allows of the totals of that. -/
  | narrowed {key value : QuotaSpec} {r : CountRange} {n : Nat} : key.Ranges r → r.Contains n →
      value.Nested → Denotes bank value n → Denotes bank (.pair key value) n
  /-- A list asks for the sums of one total of each item. -/
  | sequence {items : List QuotaSpec} {ns : List Nat} : List.Forall₂ (Denotes bank) items ns →
      Denotes bank (.sequence items) ns.sum
  /-- A mapping asks for the sums of one total of each entry. -/
  | mapping {pairs : List (QuotaSpec × QuotaSpec)} {ns : List Nat} :
      List.Forall₂ (fun pair n => Denotes bank (.pair pair.1 pair.2) n) pairs ns →
      Denotes bank (.mapping pairs) ns.sum

/-! ## The totals of a specification, by its form -/

variable {bank : List Question} {n : Nat}

/-- A count or a range denotes the totals in it. -/
theorem denotes_range_iff {spec : QuotaSpec} {r : CountRange}
    (hr : ∀ r', spec.Ranges r' ↔ r' = r) : Denotes bank spec n ↔ r.Contains n := by
  have hself : spec.Ranges r := (hr r).mpr rfl
  constructor
  · intro h
    cases h with
    | range hr' hn => rwa [(hr _).mp hr'] at hn
    -- the other rules are for specifications that are no counts
    | _ => cases hself
  · exact .range hself

/-- A tag query on its own denotes one question. -/
theorem denotes_tag_iff {text : String} : Denotes bank (.tag text) n ↔ n = 1 := by
  constructor
  · intro h
    cases h with
    | range hr _ => cases hr
    | tag => rfl
  · rintro rfl
    exact .tag

/-- A list denotes the sums of what its items denote. -/
theorem denotes_sequence_iff {items : List QuotaSpec} :
    Denotes bank (.sequence items) n ↔ ∃ ns, List.Forall₂ (Denotes bank) items ns ∧ ns.sum = n := by
  constructor
  · intro h
    cases h with
    | range hr _ => cases hr
    | sequence h => exact ⟨_, h, rfl⟩
  · rintro ⟨ns, h, rfl⟩
    exact .sequence h

/-- A mapping denotes the sums of what its entries denote. -/
theorem denotes_mapping_iff {pairs : List (QuotaSpec × QuotaSpec)} :
    Denotes bank (.mapping pairs) n ↔ ∃ ns,
      List.Forall₂ (fun pair n => Denotes bank (.pair pair.1 pair.2) n) pairs ns ∧ ns.sum = n := by
  constructor
  · intro h
    cases h with
    | range hr _ => cases hr
    | mapping h => exact ⟨_, h, rfl⟩
  · rintro ⟨ns, h, rfl⟩
    exact .mapping h

/-- A tag query with a range denotes the totals in the range for which there are questions. -/
theorem denotes_tagCount_iff {text : String} {value : QuotaSpec} {r : CountRange}
    (hr : ∀ r', value.Ranges r' ↔ r' = r) :
    Denotes bank (.pair (.tag text) value) n ↔ r.Contains n ∧ n ≤ matching bank text := by
  have hself : value.Ranges r := (hr r).mpr rfl
  constructor
  · intro h
    cases h with
    | range hr' _ => cases hr'
    | tagCount hr' hn hmatching => rw [(hr _).mp hr'] at hn; exact ⟨hn, hmatching⟩
    | countTag hr' _ _ => cases hr'
    | narrowed hr' _ _ _ => cases hr'
  · rintro ⟨hn, hmatching⟩
    exact .tagCount hself hn hmatching

/-- It is the same if the range comes first. -/
theorem denotes_countTag_iff {key : QuotaSpec} {text : String} {r : CountRange}
    (hr : ∀ r', key.Ranges r' ↔ r' = r) :
    Denotes bank (.pair key (.tag text)) n ↔ r.Contains n ∧ n ≤ matching bank text := by
  have hself : key.Ranges r := (hr r).mpr rfl
  constructor
  · intro h
    cases h with
    | range hr' _ => cases hr'
    | tagCount hr' _ _ => cases hr'
    | countTag hr' hn hmatching => rw [(hr _).mp hr'] at hn; exact ⟨hn, hmatching⟩
    | narrowed _ _ hnested _ => cases hnested
  · rintro ⟨hn, hmatching⟩
    exact .countTag hself hn hmatching

/-- A range before a list or a mapping denotes what it has in common with it. -/
theorem denotes_narrowed_iff {key value : QuotaSpec} {r : CountRange}
    (hr : ∀ r', key.Ranges r' ↔ r' = r) (hnested : value.Nested) :
    Denotes bank (.pair key value) n ↔ r.Contains n ∧ Denotes bank value n := by
  have hself : key.Ranges r := (hr r).mpr rfl
  constructor
  · intro h
    cases h with
    | range hr' _ => cases hr'
    | tagCount _ _ _ => cases hself
    | countTag _ _ _ => cases hnested
    | narrowed hr' hn _ hvalue => rw [(hr _).mp hr'] at hn; exact ⟨hn, hvalue⟩
  · rintro ⟨hn, hvalue⟩
    exact .narrowed hself hn hnested hvalue

theorem ranges_count_iff {k : Int} (r : CountRange) :
    Ranges (.count k) r ↔ r = CountRange.ofInt k := by
  constructor
  · intro h
    cases h with
    | exact n => rfl
    | any hneg => exact (if_neg (by omega)).symm
  · rintro rfl
    unfold CountRange.ofInt
    by_cases hk : 0 ≤ k
    · obtain ⟨n, rfl⟩ := Int.eq_ofNat_of_zero_le hk
      rw [if_pos hk]
      exact .exact n
    · rw [if_neg hk]
      exact .any (by omega)

/-- A text that is read as a range has that range and no other. -/
theorem ranges_range_iff {text : String} {r : CountRange} (h : CountRange.parse text = .ok r)
    (r' : CountRange) : Ranges (.range text) r' ↔ r' = r := by
  rw [← CountRange.parse_ok h]
  constructor
  · intro hr
    cases hr with
    | text h => exact h
  · exact .text

theorem Ranges.contains_min {spec : QuotaSpec} {r : CountRange} (h : spec.Ranges r) :
    r.Contains r.min := by
  cases h with
  | exact n => exact ⟨Nat.le_refl n, Nat.le_refl n⟩
  | any _ => exact ⟨Nat.le_refl 0, trivial⟩
  | text h => exact h.contains_min

end QuotaSpec

end ExamPaper
