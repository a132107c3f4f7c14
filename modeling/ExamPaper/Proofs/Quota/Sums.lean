import ExamPaper.Proofs.Quota.Correct
import ExamPaper.Proofs.Quota.Leaves
import ExamPaper.Proofs.Quota.Totals

/-!
# Sums that do not fit a word

The range of a list or a mapping is the sum of the ranges of its items, and counts are held in 64
bits. A sum that no word can hold breaks the run off (`QuotaError.overflow`).

> In a tree that is built every branch has the sums of its children for its range, unless a range
> before it narrows it. A build is broken off only at a list or a mapping whose items are built and
> do have too high a sum, and only if what the tag queries match and what the counts in lists count
> to is too much for a word together (`build_sums`, `QuotaSpec.ceiling`).

Counts beside a tag query or before a list do not matter, since they only narrow what is there. So a
bound on the bank suffices for trees that can be drawn from. It does not for others: a count may be
any number that fits a word, and two of them in a list can be too much for one (`build_overflows`).
-/

namespace ExamPaper

namespace QuotaSpec

/-! ## How high a sum can be -/

/-- How far a count with an upper end counts. -/
def countsTo : QuotaSpec → Nat
  | .count n => n.toNat
  | .range text =>
    match CountRange.parse text with
    | .ok ⟨_, .finite max⟩ => max
    | _ => 0
  | _ => 0

mutual

/-- What the tag queries of a specification match over a bank, each wherever it stands, and what the
counts that are items of lists count to, all together. -/
def ceiling (bank : List Question) : QuotaSpec → Nat
  | .count _ => 0
  | .range _ => 0
  | .tag text => matching bank text
  | .sequence items => ceilingOfItems bank items
  | .pair key value => ceiling bank key + ceiling bank value
  | .mapping pairs => ceilingOfPairs bank pairs

def ceilingOfItems (bank : List Question) : List QuotaSpec → Nat
  | [] => 0
  | item :: items => (item.countsTo + ceiling bank item) + ceilingOfItems bank items

def ceilingOfPairs (bank : List Question) : List (QuotaSpec × QuotaSpec) → Nat
  | [] => 0
  | (key, value) :: pairs => (ceiling bank key + ceiling bank value) + ceilingOfPairs bank pairs

end

end QuotaSpec

namespace QuotaTree

open QuotaSpec

/-! ## Trees whose sums are exact -/

/-- Read along the specification that it is built from, a tree has at every branch the sums of its
children for a minimum and maximum, unless a range before the branch narrows it; and each sum fits a
word. -/
inductive SumsUp : QuotaSpec → QuotaTree → Prop where
  /-- There is nothing to sum up. -/
  | leaf {spec : QuotaSpec} {q : Quota} {found : List Question} : SumsUp spec (leaf q found)
  | count {spec : QuotaSpec} {q : Quota} : spec.Ranges ⟨q.min, .finite q.max⟩ →
      SumsUp spec (branch q [])
  | sequence {items : List QuotaSpec} {q : Quota} {children : List QuotaTree} :
      List.Forall₂ SumsUp items children → Fit children →
      q.min = (children.map (·.quota.min)).sum → q.max = (children.map (·.quota.max)).sum →
      SumsUp (.sequence items) (branch q children)
  | mapping {pairs : List (QuotaSpec × QuotaSpec)} {q : Quota} {children : List QuotaTree} :
      List.Forall₂ (fun pair child => SumsUp (.pair pair.1 pair.2) child) pairs children →
      Fit children →
      q.min = (children.map (·.quota.min)).sum → q.max = (children.map (·.quota.max)).sum →
      SumsUp (.mapping pairs) (branch q children)
  /-- A branch with its exact range, and a narrower one in its place. -/
  | narrowed {key value : QuotaSpec} {r : CountRange} {q : Quota} {min max : Nat}
      {children : List QuotaTree} : key.Ranges r → SumsUp value (branch q children) →
      narrow q.label r ⟨q.min, .finite q.max⟩ = .ok (min, max) →
      SumsUp (.pair key value) (branch { q with min, max } children)

/-- A tree sums up, and its range does not reach beyond a bound. -/
structure Reaches (bound : Nat) (spec : QuotaSpec) (t : QuotaTree) : Prop where
  sumsUp : SumsUp spec t
  min_le : t.quota.min ≤ bound
  max_le : t.quota.max ≤ bound

/-- What is known of the part of a specification. A count that is an item of a list comes on top of
the ceiling, since it may stand beside a tag query or before a list as well. -/
def Reckoned (bank : List Question) (spec : QuotaSpec) : Part → Prop
  | .range _ r => spec.Ranges r ∧ ∀ max, r.max = .finite max → max ≤ spec.countsTo
  | .tag _ found => found ≠ [] ∧ found.length ≤ spec.ceiling bank
  | .node t => Reaches (spec.ceiling bank) spec t

section

variable {bank : List Question}

/-- A number counts to itself. -/
theorem reckoned_count (n : Int) :
    Reckoned bank (.count n) (.range (Int.repr n) (.ofInt n)) := by
  refine ⟨(ranges_count_iff _).mpr rfl, fun max hmax => ?_⟩
  unfold CountRange.ofInt at hmax
  split at hmax
  · exact Nat.le_of_eq (Bound.finite.inj hmax).symm
  · exact absurd hmax (by simp)

/-- A range counts to its upper end. -/
theorem reckoned_range {text : String} {r : CountRange} (h : CountRange.parse text = .ok r) :
    Reckoned bank (.range text) (.range text r) := by
  refine ⟨(ranges_range_iff h r).mpr rfl, fun max hmax => ?_⟩
  obtain ⟨min, _⟩ := r
  obtain rfl := hmax
  show max ≤ match CountRange.parse text with
    | .ok ⟨_, .finite max⟩ => max
    | _ => 0
  rw [h]

/-- What stands alone reaches as far as it counts, or as its part does. -/
theorem reaches_of_place {spec : QuotaSpec} {p : Part} {t : QuotaTree}
    (hp : Reckoned bank spec p) (h : place p = .ok t) :
    Reaches (spec.countsTo + spec.ceiling bank) spec t := by
  rcases place_ok h with ⟨label, min, max, rfl, rfl⟩ | ⟨label, found, rfl, rfl⟩ | rfl
  · obtain ⟨hranges, hmax⟩ := hp
    have hle : min ≤ max := hranges.contains_min.2
    have hcount : max ≤ spec.countsTo := hmax max rfl
    exact ⟨.count hranges, by show min ≤ _; omega, by show max ≤ _; omega⟩
  · obtain ⟨hne, hlength⟩ := hp
    have hpos := List.length_pos_of_ne_nil hne
    exact ⟨.leaf, by show 1 ≤ _; omega, by show 1 ≤ _; omega⟩
  · have hnode : Reaches (spec.ceiling bank) spec t := hp
    exact ⟨hnode.sumsUp, Nat.le_add_left_of_le hnode.min_le, Nat.le_add_left_of_le hnode.max_le⟩

/-- The tree of a mapping entry reaches no further than what it draws from. -/
theorem reaches_of_combine {key value : QuotaSpec} {k v : Part} {t : QuotaTree}
    (hk : Reckoned bank key k) (hv : Reckoned bank value v) (h : combine k v = .ok t) :
    Reaches (ceiling bank (.pair key value)) (.pair key value) t := by
  rw [ceiling]
  rcases combine_ok h with ⟨label, found, other, r, hparts, min, max, hn, rfl⟩ |
    ⟨other, r, q, children, rfl, rfl, -, min, max, hn, rfl⟩
  · -- no more than the questions found, whichever side they are on
    obtain ⟨hle, hcounts⟩ := narrow_ok hn
    have hmax : max ≤ found.length := ((hcounts max).mp ⟨hle, Nat.le_refl _⟩).1.2
    have hfound : found.length ≤ key.ceiling bank + value.ceiling bank := by
      rcases hparts with ⟨rfl, rfl⟩ | ⟨rfl, rfl⟩
      · exact Nat.le_add_right_of_le hk.2
      · exact Nat.le_add_left_of_le hv.2
    exact ⟨.leaf, by show min ≤ _; omega, by show max ≤ _; omega⟩
  · -- no more than the branch before it was narrowed
    obtain ⟨hle, hcounts⟩ := narrow_ok hn
    have hmax : max ≤ q.max := ((hcounts max).mp ⟨hle, Nat.le_refl _⟩).2.2
    have hvalue : Reaches (value.ceiling bank) value (branch q children) := hv
    have hbranch : q.max ≤ value.ceiling bank := hvalue.max_le
    exact ⟨.narrowed hk.1 hvalue.sumsUp hn, by show min ≤ _; omega, by show max ≤ _; omega⟩

/-- The children of a list or mapping reach no further than its items do together. -/
theorem sums_le {α : Type} {bound : α → Nat} {spec : α → QuotaSpec} {items : List α}
    {children : List QuotaTree}
    (h : List.Forall₂ (fun item child => Reaches (bound item) (spec item) child) items children) :
    (children.map (·.quota.min)).sum ≤ (items.map bound).sum ∧
      (children.map (·.quota.max)).sum ≤ (items.map bound).sum := by
  induction h with
  | nil => exact ⟨Nat.le_refl 0, Nat.le_refl 0⟩
  | cons hchild _ ih =>
    obtain ⟨hmin, hmax⟩ := ih
    exact ⟨Nat.add_le_add hchild.min_le hmin, Nat.add_le_add hchild.max_le hmax⟩

/-- The ceiling of the items of a list is the sum of what each of them reaches. -/
theorem ceilingOfItems_eq (items : List QuotaSpec) : ceilingOfItems bank items =
    (items.map fun item => item.countsTo + item.ceiling bank).sum := by
  induction items with
  | nil => rfl
  | cons item items ih => rw [ceilingOfItems, ih, List.map_cons, List.sum_cons]

/-- The ceiling of the entries of a mapping is the sum of their ceilings. -/
theorem ceilingOfPairs_eq (pairs : List (QuotaSpec × QuotaSpec)) : ceilingOfPairs bank pairs =
    (pairs.map fun pair => ceiling bank (.pair pair.1 pair.2)).sum := by
  induction pairs with
  | nil => rfl
  | cons pair pairs ih => rw [ceilingOfPairs, ih, List.map_cons, List.sum_cons, ceiling]

/-- The children of a list add up to no more than the ceiling of the list. -/
theorem sums_le_of_items {items : List QuotaSpec} {children : List QuotaTree}
    (h : List.Forall₂ (fun item child => ∃ p, Reckoned bank item p ∧ place p = .ok child)
      items children) :
    (children.map (·.quota.min)).sum ≤ ceiling bank (.sequence items) ∧
      (children.map (·.quota.max)).sum ≤ ceiling bank (.sequence items) := by
  rw [ceiling, ceilingOfItems_eq]
  exact sums_le (h.imp fun _ _ ⟨_, hp, ht⟩ => reaches_of_place hp ht)

/-- The children of a mapping add up to no more than the ceiling of the mapping. -/
theorem sums_le_of_pairs {pairs : List (QuotaSpec × QuotaSpec)} {children : List QuotaTree}
    (h : List.Forall₂ (fun (pair : QuotaSpec × QuotaSpec) child =>
      ∃ k v, Reckoned bank pair.1 k ∧ Reckoned bank pair.2 v ∧ combine k v = .ok child)
      pairs children) :
    (children.map (·.quota.min)).sum ≤ ceiling bank (.mapping pairs) ∧
      (children.map (·.quota.max)).sum ≤ ceiling bank (.mapping pairs) := by
  have hreaches : List.Forall₂ (fun pair child =>
      Reaches (ceiling bank (.pair pair.1 pair.2)) (.pair pair.1 pair.2) child) pairs children :=
    h.imp fun _ _ ⟨_, _, hk, hv, ht⟩ => reaches_of_combine hk hv ht
  rw [ceiling, ceilingOfPairs_eq]
  exact sums_le hreaches

/-- The induction over the specification: every part that is made sums up below the ceiling. -/
theorem reckoned_cases (bank : List Question) : PartCases bank (Reckoned bank) where
  count := reckoned_count
  range _ _ h := reckoned_range h
  tag _ _ _ hq hs hne := ⟨hne, Nat.le_of_eq (length_select hq hs)⟩
  sequence items children h hfit := by
    obtain ⟨hmin, hmax⟩ := sums_le_of_items h
    refine ⟨.sequence ?_ hfit rfl rfl, hmin, hmax⟩
    exact h.imp fun _ _ ⟨_, hp, ht⟩ => (reaches_of_place hp ht).sumsUp
  pair _ _ _ _ _ hk hv ht := reaches_of_combine hk hv ht
  mapping pairs children h hfit := by
    obtain ⟨hmin, hmax⟩ := sums_le_of_pairs h
    refine ⟨.mapping ?_ hfit rfl rfl, hmin, hmax⟩
    exact h.imp fun _ _ ⟨_, _, hk, hv, ht⟩ => (reaches_of_combine hk hv ht).sumsUp

/-! ## Where a build is broken off -/

/-- The items of a list or the entries of a mapping are built, and a sum of their ranges does not
fit a word. -/
inductive SumTooHigh (bank : List Question) : QuotaSpec → Prop where
  | sequence {items : List QuotaSpec} {children : List QuotaTree} :
      places bank items = .ok children → ¬ Fit children → SumTooHigh bank (.sequence items)
  | mapping {pairs : List (QuotaSpec × QuotaSpec)} {children : List QuotaTree} :
      entries bank pairs = .ok children → ¬ Fit children → SumTooHigh bank (.mapping pairs)

/-- A list or mapping whose sum is too high has a ceiling that is too high. -/
theorem SumTooHigh.wordLimit_le {spec : QuotaSpec} (h : SumTooHigh bank spec) :
    wordLimit ≤ spec.ceiling bank := by
  by_contra hlow
  cases h with
  | sequence hplaces hfit =>
    obtain ⟨hmin, hmax⟩ := sums_le_of_items ((reckoned_cases bank).of_places hplaces)
    exact hfit ⟨by omega, by omega⟩
  | mapping hentries hfit =>
    obtain ⟨hmin, hmax⟩ := sums_le_of_pairs ((reckoned_cases bank).of_entries hentries)
    exact hfit ⟨by omega, by omega⟩

/-- The reading of a count range makes no sums. -/
theorem parse_ne_overflow (text : String) : CountRange.parse text ≠ .error .overflow := by
  unfold CountRange.parse CountRange.parseTrimmed
  dsimp only
  repeat' split
  all_goals simp

/-- Nor does the search for the questions of a tag query. -/
theorem tagPart_ne_overflow (text : String) : tagPart bank text ≠ .error .overflow := by
  unfold tagPart
  repeat' split
  all_goals simp

/-- Nor does the narrowing of a range. -/
theorem narrow_ne_overflow (label : String) (own sub : CountRange) :
    narrow label own sub ≠ .error .overflow := by
  rcases narrow_cases label own sub with hunresolved | ⟨max, -, hnarrow⟩
  · rw [hunresolved]
    simp
  · rw [hnarrow]
    split <;> simp

/-- Nothing is added where an item stands alone. -/
theorem place_ne_overflow (p : Part) : place p ≠ .error .overflow := by
  unfold place
  split <;> simp

/-- Nothing is added where a range limits the questions of a tag. -/
theorem limited_ne_overflow (label : String) (found : List Question) (r : CountRange) :
    limited label found r ≠ .error .overflow := by
  unfold limited
  cases hn : narrow label ⟨0, .finite found.length⟩ r with
  | error e =>
    rintro ⟨rfl⟩
    exact narrow_ne_overflow _ _ _ hn
  | ok range => simp

/-- Pairing a key and a value makes no sums, in whatever order they stand. -/
theorem combine_ne_overflow (key value : Part) : combine key value ≠ .error .overflow := by
  unfold combine
  split
  · exact limited_ne_overflow _ _ _
  · exact limited_ne_overflow _ _ _
  · rename_i r q child children
    cases hn : narrow q.label r ⟨q.min, .finite q.max⟩ with
    | error e =>
      rintro ⟨rfl⟩
      exact narrow_ne_overflow _ _ _ hn
    | ok range => simp
  · simp

/-- The branch over some trees cannot be made only if a sum is too high. -/
theorem not_fit_of_summed {kind : String} {children : List QuotaTree}
    (h : (summed kind children).map Part.node = .error .overflow) : ¬ Fit children := by
  intro hfit
  rw [summed_of_fit hfit] at h
  exact absurd h (by simp [Except.map])

mutual

/-- A part over which a run is broken off has a list or mapping in it whose sum is too high. -/
theorem exists_sumTooHigh : ∀ {spec : QuotaSpec}, part bank spec = .error .overflow →
    ∃ inner, Within inner spec ∧ SumTooHigh bank inner
  | .count n, h => by
    rw [part] at h
    exact absurd h (by simp)
  | .range text, h => by
    rw [part] at h
    cases hr : CountRange.parse text with
    | error e =>
      rw [hr] at h
      obtain rfl := Except.error.inj h
      exact absurd hr (parse_ne_overflow text)
    | ok r => rw [hr] at h; exact absurd h (by simp)
  | .tag text, h => by
    rw [part] at h
    exact absurd h (tagPart_ne_overflow text)
  | .sequence items, h => by
    rw [part_sequence] at h
    rcases bind_eq_error_iff.mp h with hitems | ⟨children, hc, hsum⟩
    · obtain ⟨item, hitem, inner, hwithin, hhigh⟩ := exists_sumTooHigh_of_places hitems
      exact ⟨inner, .item hitem hwithin, hhigh⟩
    · exact ⟨.sequence items, .self, .sequence hc (not_fit_of_summed hsum)⟩
  | .pair key value, h => by
    rw [part_pair] at h
    rcases bind_eq_error_iff.mp h with hk | ⟨k, -, h⟩
    · obtain ⟨inner, hwithin, hhigh⟩ := exists_sumTooHigh hk
      exact ⟨inner, .key hwithin, hhigh⟩
    rcases bind_eq_error_iff.mp h with hv | ⟨v, -, h⟩
    · obtain ⟨inner, hwithin, hhigh⟩ := exists_sumTooHigh hv
      exact ⟨inner, .value hwithin, hhigh⟩
    cases ht : combine k v with
    | error e =>
      rw [ht] at h
      obtain rfl := Except.error.inj h
      exact absurd ht (combine_ne_overflow k v)
    | ok t => rw [ht] at h; exact absurd h (by simp [Except.map])
  | .mapping pairs, h => by
    rw [part_mapping] at h
    rcases bind_eq_error_iff.mp h with hpairs | ⟨children, hc, hsum⟩
    · obtain ⟨entry, hentry, inner, hwithin | hwithin, hhigh⟩ :=
        exists_sumTooHigh_of_entries hpairs
      · exact ⟨inner, .entryKey hentry hwithin, hhigh⟩
      · exact ⟨inner, .entryValue hentry hwithin, hhigh⟩
    · exact ⟨.mapping pairs, .self, .mapping hc (not_fit_of_summed hsum)⟩

/-- The same for the items of a list: one of them has such a place in it. -/
theorem exists_sumTooHigh_of_places : ∀ {items : List QuotaSpec},
    places bank items = .error .overflow →
      ∃ item ∈ items, ∃ inner, Within inner item ∧ SumTooHigh bank inner
  | [], h => by
    rw [places] at h
    exact absurd h (by simp)
  | item :: items, h => by
    rw [places_cons] at h
    rcases bind_eq_error_iff.mp h with hp | ⟨p, -, h⟩
    · exact ⟨item, List.mem_cons_self, exists_sumTooHigh hp⟩
    rcases bind_eq_error_iff.mp h with ht | ⟨child, -, h⟩
    · exact absurd ht (place_ne_overflow p)
    rcases bind_eq_error_iff.mp h with hc | ⟨children, -, h⟩
    · obtain ⟨later, hlater, hinner⟩ := exists_sumTooHigh_of_places hc
      exact ⟨later, List.mem_cons_of_mem _ hlater, hinner⟩
    · exact absurd h (by simp)

/-- The same for the entries of a mapping: a key or a value has such a place in it. -/
theorem exists_sumTooHigh_of_entries : ∀ {pairs : List (QuotaSpec × QuotaSpec)},
    entries bank pairs = .error .overflow →
      ∃ entry ∈ pairs, ∃ inner, (Within inner entry.1 ∨ Within inner entry.2) ∧
        SumTooHigh bank inner
  | [], h => by
    rw [entries] at h
    exact absurd h (by simp)
  | (key, value) :: pairs, h => by
    rw [entries_cons] at h
    rcases bind_eq_error_iff.mp h with hk | ⟨k, -, h⟩
    · obtain ⟨inner, hwithin, hhigh⟩ := exists_sumTooHigh hk
      exact ⟨(key, value), List.mem_cons_self, inner, Or.inl hwithin, hhigh⟩
    rcases bind_eq_error_iff.mp h with hv | ⟨v, -, h⟩
    · obtain ⟨inner, hwithin, hhigh⟩ := exists_sumTooHigh hv
      exact ⟨(key, value), List.mem_cons_self, inner, Or.inr hwithin, hhigh⟩
    rcases bind_eq_error_iff.mp h with ht | ⟨child, -, h⟩
    · exact absurd ht (combine_ne_overflow k v)
    rcases bind_eq_error_iff.mp h with hc | ⟨children, -, h⟩
    · obtain ⟨later, hlater, hinner⟩ := exists_sumTooHigh_of_entries hc
      exact ⟨later, List.mem_cons_of_mem _ hlater, hinner⟩
    · exact absurd h (by simp)

end

/-- Whatever stands in a specification has no higher ceiling. -/
theorem ceiling_le_of_within {inner spec : QuotaSpec} (h : Within inner spec) :
    inner.ceiling bank ≤ spec.ceiling bank := by
  induction h with
  | self => exact Nat.le_refl _
  | @item items item hitem _ ih =>
    rw [ceiling, ceilingOfItems_eq]
    calc inner.ceiling bank ≤ item.countsTo + item.ceiling bank := Nat.le_add_left_of_le ih
      _ ≤ (items.map fun item => item.countsTo + item.ceiling bank).sum :=
        List.single_le_sum (fun _ _ => Nat.zero_le _) _ (List.mem_map_of_mem hitem)
  | key _ ih => rw [ceiling]; exact Nat.le_add_right_of_le ih
  | value _ ih => rw [ceiling]; exact Nat.le_add_left_of_le ih
  | @entryKey pairs entry hentry _ ih =>
    rw [ceiling, ceilingOfPairs_eq]
    calc inner.ceiling bank ≤ ceiling bank (.pair entry.1 entry.2) := by
          rw [ceiling]; exact Nat.le_add_right_of_le ih
      _ ≤ (pairs.map fun pair => ceiling bank (.pair pair.1 pair.2)).sum :=
        List.single_le_sum (fun _ _ => Nat.zero_le _) _ (List.mem_map_of_mem hentry)
  | @entryValue pairs entry hentry _ ih =>
    rw [ceiling, ceilingOfPairs_eq]
    calc inner.ceiling bank ≤ ceiling bank (.pair entry.1 entry.2) := by
          rw [ceiling]; exact Nat.le_add_left_of_le ih
      _ ≤ (pairs.map fun pair => ceiling bank (.pair pair.1 pair.2)).sum :=
        List.single_le_sum (fun _ _ => Nat.zero_le _) _ (List.mem_map_of_mem hentry)

end

end QuotaTree

/-! ## Specifications without counts in lists -/

namespace QuotaSpec

/-- What is no bounded count counts to nothing. -/
theorem countsTo_eq_zero {spec : QuotaSpec} (h : ¬spec.BoundedCount) : spec.countsTo = 0 := by
  cases spec with
  | count n =>
    by_cases hn : 0 ≤ n
    · have hranges : Ranges (.count n) (.ofInt n) := (ranges_count_iff _).mpr rfl
      unfold CountRange.ofInt at hranges
      rw [if_pos hn] at hranges
      exact absurd ⟨_, _, hranges⟩ h
    · exact Int.toNat_of_nonpos (by omega)
  | range text =>
    unfold countsTo
    dsimp only
    split
    · rename_i hparse
      exact absurd ⟨_, _, (ranges_range_iff hparse _).mpr rfl⟩ h
    · rfl
  | _ => rfl

section

variable {bank : List Question}

mutual

/-- Without counts in lists, only what the tag queries match adds up. -/
theorem ceiling_le : ∀ {spec : QuotaSpec}, ¬spec.HasLoneCount →
    spec.ceiling bank ≤ spec.tagTexts.length * bank.length
  | .count _, _ => by rw [ceiling]; exact Nat.zero_le _
  | .range _, _ => by rw [ceiling]; exact Nat.zero_le _
  | .tag text, _ => by
    rw [ceiling, tagTexts, List.length_singleton, Nat.one_mul]
    exact List.countP_le_length
  | .sequence items, h => by
    rw [ceiling, tagTexts]
    rw [hasLoneCount_sequence] at h
    exact ceilingOfItems_le fun item hitem => not_or.mp fun hcount => h ⟨item, hitem, hcount⟩
  | .pair key value, h => by
    rw [hasLoneCount_pair, not_or] at h
    rw [ceiling, tagTexts, List.length_append, Nat.add_mul]
    exact Nat.add_le_add (ceiling_le h.1) (ceiling_le h.2)
  | .mapping pairs, h => by
    rw [ceiling, tagTexts]
    rw [hasLoneCount_mapping] at h
    exact ceilingOfPairs_le fun pair hpair => not_or.mp fun hcount => h ⟨pair, hpair, hcount⟩

/-- Without bounded counts in lists, the items of a list ask for no more than all their tag queries
can find. -/
theorem ceilingOfItems_le : ∀ {items : List QuotaSpec},
    (∀ item ∈ items, ¬item.BoundedCount ∧ ¬item.HasLoneCount) →
      ceilingOfItems bank items ≤ (tagTextsOfItems items).length * bank.length
  | [], _ => Nat.zero_le _
  | item :: items, h => by
    obtain ⟨⟨hcount, hlone⟩, hrest⟩ := List.forall_mem_cons.mp h
    rw [ceilingOfItems, tagTextsOfItems, List.length_append, Nat.add_mul, countsTo_eq_zero hcount,
      Nat.zero_add]
    exact Nat.add_le_add (ceiling_le hlone) (ceilingOfItems_le hrest)

/-- So do the entries of a mapping. -/
theorem ceilingOfPairs_le : ∀ {pairs : List (QuotaSpec × QuotaSpec)},
    (∀ pair ∈ pairs, ¬pair.1.HasLoneCount ∧ ¬pair.2.HasLoneCount) →
      ceilingOfPairs bank pairs ≤ (tagTextsOfPairs pairs).length * bank.length
  | [], _ => Nat.zero_le _
  | (key, value) :: pairs, h => by
    obtain ⟨⟨hkey, hvalue⟩, hrest⟩ := List.forall_mem_cons.mp h
    rw [ceilingOfPairs, tagTextsOfPairs, List.length_append, List.length_append, Nat.add_mul,
      Nat.add_mul]
    exact Nat.add_le_add (Nat.add_le_add (ceiling_le hkey) (ceiling_le hvalue))
      (ceilingOfPairs_le hrest)

end

end

end QuotaSpec

namespace QuotaTree

open QuotaSpec

/-- **Sums.** In a tree that is built the range of every branch is the sum of the ranges of its
children, which fits a word, unless a range before the branch narrows it. A build is broken off only
where the sum of a list or mapping in the specification does not fit, and then what the tag queries
match and what the counts that are items of lists count to does not fit a word either, all together.
It does fit if no list has a count with an upper end among its items, there are fewer than `2 ^ 32`
questions, and no more than `2 ^ 32` tag queries. -/
theorem build_sums (spec : QuotaSpec) (bank : List Question) :
    (∀ tree, build spec bank = .ok tree → SumsUp spec tree) ∧
    (build spec bank = .error .overflow →
      (∃ inner, Within inner spec ∧ SumTooHigh bank inner) ∧ wordLimit ≤ spec.ceiling bank) ∧
    (¬spec.HasLoneCount → bank.length < 2 ^ 32 → spec.tagTexts.length ≤ 2 ^ 32 →
      spec.ceiling bank < wordLimit) := by
  refine ⟨fun tree h => ?_, fun h => ?_, fun hlone hbank htexts => ?_⟩
  · obtain ⟨p, hp, hplace⟩ := (reckoned_cases bank).of_build h
    exact (reaches_of_place hp hplace).sumsUp
  · rw [build_eq] at h
    rcases bind_eq_error_iff.mp h with hp | ⟨p, -, hplace⟩
    · obtain ⟨inner, hwithin, hhigh⟩ := exists_sumTooHigh hp
      exact ⟨⟨inner, hwithin, hhigh⟩,
        Nat.le_trans hhigh.wordLimit_le (ceiling_le_of_within hwithin)⟩
    · exact absurd hplace (place_ne_overflow p)
  · calc spec.ceiling bank ≤ spec.tagTexts.length * bank.length := ceiling_le hlone
      _ ≤ 2 ^ 32 * bank.length := Nat.mul_le_mul_right _ htexts
      _ < wordLimit := by unfold wordLimit; omega

/-- The document `[0-18446744073709551615, 1]`. -/
def overflowingValue : Value := .list [.text "0-18446744073709551615", .number (.int 1)]

def overflowingSpec : QuotaSpec := .sequence [.range "0-18446744073709551615", .count 1]

def overflowingItems : List QuotaTree := [
  branch { label := "0-18446744073709551615", min := 0, max := 18446744073709551615 } [],
  branch { label := "1", min := 1, max := 1 } []]

/-- Two counts in a list, each of which fits a word, are too much for one together: their trees are
built, and the run is broken off at the sum of their maxima. -/
theorem build_overflows :
    QuotaSpec.ofValue overflowingValue = .ok overflowingSpec ∧
    places [] [.range "0-18446744073709551615", .count 1] = .ok overflowingItems ∧
    (overflowingItems.map (·.quota.min)).sum = 1 ∧
    (overflowingItems.map (·.quota.max)).sum = 18446744073709551616 ∧
    build overflowingSpec [] = .error .overflow :=
  ⟨rfl, rfl, rfl, rfl, rfl⟩

/-- Without counts in lists, with one that is low, and with two that are too high together. -/
theorem build_sums_sampleTree :
    (¬sampleSpec.HasLoneCount ∧ sampleSpec.ceiling sampleBank < wordLimit ∧
      build sampleSpec sampleBank = .ok sampleTree ∧ SumsUp sampleSpec sampleTree) ∧
    (loneCountSpec.ceiling sampleBank < wordLimit ∧
      build loneCountSpec sampleBank ≠ .error .overflow) ∧
    build overflowingSpec [] = .error .overflow ∧ wordLimit ≤ overflowingSpec.ceiling [] := by
  have hcounts : ∀ spec : QuotaSpec, ¬spec.Nested → ¬spec.HasLoneCount :=
    fun _ hnested hlone => hnested hlone.nested
  have hpairs : ∀ key value, ¬BoundedCount (.pair key value) := by
    rintro key value ⟨min, max, hranges⟩
    cases hranges
  have hlone : ¬sampleSpec.HasLoneCount := by
    have hrange : ∀ text, ¬HasLoneCount (.range text) := fun _ => hcounts _ (by rintro ⟨⟩)
    have htag : ∀ text, ¬HasLoneCount (.tag text) := fun _ => hcounts _ (by rintro ⟨⟩)
    have hcount : ∀ n, ¬HasLoneCount (.count n) := fun _ => hcounts _ (by rintro ⟨⟩)
    simp [sampleSpec, hasLoneCount_mapping, hasLoneCount_sequence, hasLoneCount_pair, hrange, htag,
      hcount, hpairs]
  obtain ⟨hsums, -, hceiling⟩ := build_sums sampleSpec sampleBank
  have hlow : loneCountSpec.ceiling sampleBank < wordLimit := by decide
  obtain ⟨-, hfits, -⟩ := build_sums loneCountSpec sampleBank
  have hoverflow : build overflowingSpec [] = .error .overflow := rfl
  obtain ⟨-, hhigh, -⟩ := build_sums overflowingSpec []
  exact ⟨⟨hlone, hceiling hlone (by decide) (by decide), build_sampleSpec,
      hsums _ build_sampleSpec⟩,
    ⟨hlow, fun h => absurd (hfits h).2 (Nat.not_le_of_lt hlow)⟩, hoverflow, (hhigh hoverflow).2⟩

end QuotaTree

end ExamPaper
