import ExamPaper.Quota.Build
import Mathlib.Algebra.GroupWithZero.Nat
import Mathlib.Data.List.Forall2

/-!
# Induction on the parts of a specification

`part` resolves a specification together with the lists inside it, and fails in many places. What is
built when nothing fails is much simpler: six ways to make a part, four of them from smaller parts.
`PartCases bank M` lists what `M` has to satisfy in each, and `PartCases.of_part` concludes that `M`
holds of every specification and its part (`PartCases.of_build` for the tree). `place_ok` and
`combine_ok` say in the same way what the two functions that make trees of parts can give.

Ranges are narrowed by `narrow`, which is characterised by the counts it lets through:

> `narrow_ok`: the counts of a narrowed range are those that are in both ranges.
> `narrow_emptyRange`: ranges that are refused for having none in common have none in common.

Sums are checked one addition at a time, and the last addition decides:

> `summed_eq_ok_iff`: trees are put together exactly if their minima and their maxima each add up to
> a number that a word can hold, and then the branch has these sums (`together`).
-/

namespace ExamPaper

/-- Whether an upper end lets a count through. -/
def Bound.Admits : Bound → Nat → Prop
  | finite max, n => n ≤ max
  | unbounded, _ => True

/-- Whether a count is in a range. -/
def CountRange.Contains (r : CountRange) (n : Nat) : Prop := r.min ≤ n ∧ r.max.Admits n

namespace QuotaTree

/-! ## Narrowing -/

/-- Of two ranges either narrows the other. -/
theorem narrow_comm (label : String) (own sub : CountRange) :
    narrow label own sub = narrow label sub own := by
  obtain ⟨ownMin, ownMax⟩ := own
  obtain ⟨subMin, subMax⟩ := sub
  have hmins : Nat.max ownMin subMin = Nat.max subMin ownMin := Nat.max_comm ownMin subMin
  unfold narrow
  dsimp only
  rw [hmins]
  cases ownMax with
  | finite a =>
    cases subMax with
    | finite b =>
      have hmaxs : Nat.min a b = Nat.min b a := Nat.min_comm a b
      dsimp only
      rw [hmaxs]
    | unbounded => rfl
  | unbounded => cases subMax <;> rfl

/-- A range with an upper end always has one after it is narrowed. -/
theorem narrow_finite (label : String) (m a : Nat) (sub : CountRange) :
    ∃ max, (∀ n, n ≤ max ↔ n ≤ a ∧ sub.max.Admits n) ∧
      narrow label ⟨m, .finite a⟩ sub =
        if max < Nat.max m sub.min then .error (.emptyRange label (Nat.max m sub.min) max)
        else .ok (Nat.max m sub.min, max) := by
  obtain ⟨subMin, subMax⟩ := sub
  cases subMax with
  | finite b => exact ⟨Nat.min a b, fun n => Nat.le_min, rfl⟩
  | unbounded => exact ⟨a, fun n => by simp [Bound.Admits], rfl⟩

/-- Two ranges without an upper end are refused. Otherwise the lower upper end counts, and the range
is refused if it lies below the higher lower end. -/
theorem narrow_cases (label : String) (own sub : CountRange) :
    narrow label own sub = .error (.unresolved label) ∨
    ∃ max, (∀ n, n ≤ max ↔ own.max.Admits n ∧ sub.max.Admits n) ∧
      narrow label own sub =
        if max < Nat.max own.min sub.min then
          .error (.emptyRange label (Nat.max own.min sub.min) max)
        else .ok (Nat.max own.min sub.min, max) := by
  obtain ⟨ownMin, ownMax⟩ := own
  cases ownMax with
  | finite a => exact Or.inr (narrow_finite label ownMin a sub)
  | unbounded =>
    obtain ⟨subMin, subMax⟩ := sub
    cases subMax with
    | finite b => exact Or.inr ⟨b, fun n => by simp [Bound.Admits], rfl⟩
    | unbounded => exact Or.inl rfl

/-- The counts of both ranges are those between the higher lower end and the lower upper end. -/
theorem contains_both_iff {own sub : CountRange} {max : Nat}
    (hmax : ∀ n, n ≤ max ↔ own.max.Admits n ∧ sub.max.Admits n) (n : Nat) :
    (Nat.max own.min sub.min ≤ n ∧ n ≤ max) ↔ own.Contains n ∧ sub.Contains n := by
  rw [hmax, CountRange.Contains, CountRange.Contains, Nat.max_le]
  exact and_and_and_comm

/-- A narrowed range is not empty, and its counts are those of both ranges. -/
theorem narrow_ok {label : String} {own sub : CountRange} {min max : Nat}
    (h : narrow label own sub = .ok (min, max)) :
    min ≤ max ∧ ∀ n, (min ≤ n ∧ n ≤ max) ↔ own.Contains n ∧ sub.Contains n := by
  rcases narrow_cases label own sub with hunresolved | ⟨m, hm, hnarrow⟩
  · rw [hunresolved] at h
    exact absurd h (by simp)
  · rw [hnarrow] at h
    by_cases hlt : m < Nat.max own.min sub.min
    · rw [if_pos hlt] at h
      exact absurd h (by simp)
    · rw [if_neg hlt, Except.ok.injEq, Prod.mk.injEq] at h
      obtain ⟨rfl, rfl⟩ := h
      exact ⟨Nat.not_lt.mp hlt, contains_both_iff hm⟩

/-- A range that is refused for being empty has no counts. -/
theorem narrow_emptyRange {label l : String} {own sub : CountRange} {lo hi : Nat}
    (h : narrow label own sub = .error (.emptyRange l lo hi)) (n : Nat) :
    ¬ (own.Contains n ∧ sub.Contains n) := by
  rcases narrow_cases label own sub with hunresolved | ⟨m, hm, hnarrow⟩
  · rw [hunresolved] at h
    exact absurd h (by simp)
  · rw [hnarrow] at h
    by_cases hlt : m < Nat.max own.min sub.min
    · rw [← contains_both_iff hm n]
      omega
    · rw [if_neg hlt] at h
      exact absurd h (by simp)

/-! ## Sums -/

/-- Checking every addition comes to checking the last one, for the sums do not decrease. -/
theorem foldlM_addCount (counts : List Nat) : ∀ {sum : Nat}, sum < wordLimit →
    counts.foldlM addCount sum =
      if sum + counts.sum < wordLimit then .ok (sum + counts.sum) else .error .overflow := by
  induction counts with
  | nil => intro sum hsum; exact (if_pos hsum).symm
  | cons n counts ih =>
    intro sum hsum
    rw [List.foldlM_cons, List.sum_cons, ← Nat.add_assoc]
    unfold addCount
    by_cases hfits : sum + n < wordLimit
    · rw [if_pos hfits]
      exact ih hfits
    · rw [if_neg hfits, if_neg (by omega)]
      rfl

/-- The additions one by one go well just if the sum fits a word. -/
theorem sumCounts_eq (counts : List Nat) :
    sumCounts counts = if counts.sum < wordLimit then .ok counts.sum else .error .overflow := by
  have hfold := foldlM_addCount counts (by decide : 0 < wordLimit)
  rwa [Nat.zero_add] at hfold

/-- A word can hold the sum of the minima of some trees, and that of their maxima. -/
structure Fit (children : List QuotaTree) : Prop where
  min : (children.map (·.quota.min)).sum < wordLimit
  max : (children.map (·.quota.max)).sum < wordLimit

/-- The branch over some trees that has the sums of their minima and maxima. -/
def together (kind : String) (children : List QuotaTree) : QuotaTree :=
  branch {
    label := summedLabel kind children
    min := (children.map (·.quota.min)).sum
    max := (children.map (·.quota.max)).sum } children

/-- Trees whose sums fit are put together. -/
theorem summed_of_fit {children : List QuotaTree} (h : Fit children) (kind : String) :
    summed kind children = .ok (together kind children) := by
  unfold summed
  rw [sumCounts_eq, if_pos h.min, sumCounts_eq, if_pos h.max]
  rfl

/-- A sum that does not fit breaks the run off. -/
theorem summed_of_not_fit {children : List QuotaTree} (h : ¬ Fit children) (kind : String) :
    summed kind children = .error .overflow := by
  unfold summed
  rw [sumCounts_eq, sumCounts_eq]
  by_cases hmin : (children.map (·.quota.min)).sum < wordLimit
  · rw [if_pos hmin, if_neg fun hmax => h ⟨hmin, hmax⟩]
  · rw [if_neg hmin]

/-- Trees are put together exactly if both sums fit a word. -/
theorem summed_eq_ok_iff {kind : String} {children : List QuotaTree} {t : QuotaTree} :
    summed kind children = .ok t ↔ Fit children ∧ t = together kind children := by
  by_cases hfit : Fit children
  · rw [summed_of_fit hfit, Except.ok.injEq, eq_comm]
    exact (and_iff_right hfit).symm
  · rw [summed_of_not_fit hfit]
    exact iff_of_false (by simp) fun h => hfit h.1

/-! ## Trees of parts -/

/-- What stands alone: a bounded count without children, one question of a tag, or a tree. -/
theorem place_ok {p : Part} {t : QuotaTree} (h : place p = .ok t) :
    (∃ label min max, p = .range label ⟨min, .finite max⟩ ∧ t = branch { label, min, max } []) ∨
    (∃ label bank, p = .tag label bank ∧ t = leaf { label, min := 1, max := 1 } bank) ∨
    p = .node t := by
  cases p with
  | range label r =>
    obtain ⟨min, max⟩ := r
    cases max with
    | finite max => exact Or.inl ⟨label, min, max, rfl, (Except.ok.inj h).symm⟩
    | unbounded => exact absurd h (by simp [place])
  | tag label bank => exact Or.inr (Or.inl ⟨label, bank, rfl, (Except.ok.inj h).symm⟩)
  | node u => exact Or.inr (Or.inr (congrArg Part.node (Except.ok.inj h)))

/-- A leaf has the questions of its tag and what is left of the range. -/
theorem limited_ok {label : String} {bank : List Question} {r : CountRange} {t : QuotaTree}
    (h : limited label bank r = .ok t) :
    ∃ min max, narrow label ⟨0, .finite bank.length⟩ r = .ok (min, max) ∧
      t = leaf { label, min, max } bank := by
  unfold limited at h
  cases hn : narrow label ⟨0, .finite bank.length⟩ r with
  | error e => rw [hn] at h; exact absurd h (by simp)
  | ok range =>
    rw [hn] at h
    exact ⟨range.1, range.2, rfl, (Except.ok.inj h).symm⟩

/-- A leaf is refused if the range asks for more questions than there are. -/
theorem limited_emptyRange {label l : String} {found : List Question} {r : CountRange}
    {lo hi : Nat} (h : limited label found r = .error (.emptyRange l lo hi)) :
    narrow label ⟨0, .finite found.length⟩ r = .error (.emptyRange l lo hi) := by
  unfold limited at h
  cases hn : narrow label ⟨0, .finite found.length⟩ r with
  | error e => rw [hn] at h; exact congrArg Except.error (Except.error.inj h)
  | ok range => rw [hn] at h; exact absurd h (by simp)

/-- What a mapping entry gives: a leaf from a tag and a range, in either order, or a branch under a
narrower range. -/
theorem combine_ok {key value : Part} {t : QuotaTree} (h : combine key value = .ok t) :
    (∃ label bank other r, (key = .tag label bank ∧ value = .range other r ∨
        key = .range other r ∧ value = .tag label bank) ∧
      ∃ min max, narrow label ⟨0, .finite bank.length⟩ r = .ok (min, max) ∧
        t = leaf { label, min, max } bank) ∨
    (∃ other r q children, key = .range other r ∧ value = .node (branch q children) ∧
      children ≠ [] ∧
      ∃ min max, narrow q.label r ⟨q.min, .finite q.max⟩ = .ok (min, max) ∧
        t = branch { q with min, max } children) := by
  cases key with
  | range other r =>
    cases value with
    | range label' r' => exact absurd h (by simp [combine])
    | tag label bank => exact Or.inl ⟨label, bank, other, r, Or.inr ⟨rfl, rfl⟩, limited_ok h⟩
    | node u =>
      cases u with
      | leaf q bank => exact absurd h (by simp [combine])
      | branch q children =>
        cases children with
        | nil => exact absurd h (by simp [combine])
        | cons c children =>
          refine Or.inr ⟨other, r, q, c :: children, rfl, rfl, by simp, ?_⟩
          unfold combine at h
          cases hn : narrow q.label r ⟨q.min, .finite q.max⟩ with
          | error e => simp only [hn] at h; exact absurd h (by simp)
          | ok range =>
            simp only [hn] at h
            exact ⟨range.1, range.2, rfl, (Except.ok.inj h).symm⟩
  | tag label bank =>
    cases value with
    | range other r => exact Or.inl ⟨label, bank, other, r, Or.inl ⟨rfl, rfl⟩, limited_ok h⟩
    | tag label' bank' => exact absurd h (by simp [combine])
    | node u => exact absurd h (by simp [combine])
  | node u => exact absurd h (by cases value <;> simp [combine])

/-- A mapping entry that is refused for its empty range is a tag and a range, in either order, or a
range before a branch. -/
theorem combine_emptyRange {key value : Part} {l : String} {lo hi : Nat}
    (h : combine key value = .error (.emptyRange l lo hi)) :
    (∃ label found other r, (key = .tag label found ∧ value = .range other r ∨
        key = .range other r ∧ value = .tag label found) ∧
      narrow label ⟨0, .finite found.length⟩ r = .error (.emptyRange l lo hi)) ∨
    (∃ other r t, key = .range other r ∧ value = .node t ∧
      narrow t.quota.label r ⟨t.quota.min, .finite t.quota.max⟩ =
        .error (.emptyRange l lo hi)) := by
  cases key with
  | range other r =>
    cases value with
    | range label' r' => exact absurd h (by simp [combine])
    | tag label found =>
      exact Or.inl ⟨label, found, other, r, Or.inr ⟨rfl, rfl⟩, limited_emptyRange h⟩
    | node t =>
      cases t with
      | leaf q found => exact absurd h (by simp [combine])
      | branch q children =>
        cases children with
        | nil => exact absurd h (by simp [combine])
        | cons c children =>
          refine Or.inr ⟨other, r, branch q (c :: children), rfl, rfl, ?_⟩
          unfold combine at h
          show narrow q.label r ⟨q.min, .finite q.max⟩ = _
          cases hn : narrow q.label r ⟨q.min, .finite q.max⟩ with
          | error e => simp only [hn] at h; exact congrArg Except.error (Except.error.inj h)
          | ok range => simp only [hn] at h; exact absurd h (by simp)
  | tag label found =>
    cases value with
    | range other r =>
      exact Or.inl ⟨label, found, other, r, Or.inl ⟨rfl, rfl⟩, limited_emptyRange h⟩
    | tag label' found' => exact absurd h (by simp [combine])
    | node t => exact absurd h (by simp [combine])
  | node t => exact absurd h (by cases value <;> simp [combine])

/-- The part of a tag query holds the questions that the query selects, and they are not none. -/
theorem tagPart_ok {bank : List Question} {text : String} {p : Part}
    (h : tagPart bank text = .ok p) :
    ∃ q found, TagQuery.parse text = .ok q ∧ q.select Question.tags bank = .ok found ∧
      found ≠ [] ∧ p = .tag text found := by
  unfold tagPart at h
  cases hq : TagQuery.parse text with
  | error e => rw [hq] at h; exact absurd h (by simp)
  | ok q =>
    simp only [hq] at h
    cases hs : q.select Question.tags bank with
    | error e => rw [hs] at h; exact absurd h (by simp)
    | ok found =>
      rw [hs] at h
      cases found with
      | nil => exact absurd h (by simp)
      | cons x xs => exact ⟨q, x :: xs, rfl, hs, by simp, (Except.ok.inj h).symm⟩

/-- The part of a list or mapping is the branch over its trees. -/
theorem node_of_summed {kind : String} {children : List QuotaTree} {p : Part}
    (h : (summed kind children).map .node = .ok p) :
    Fit children ∧ p = .node (together kind children) := by
  by_cases hfit : Fit children
  · rw [summed_of_fit hfit] at h
    exact ⟨hfit, (Except.ok.inj h).symm⟩
  · rw [summed_of_not_fit hfit] at h
    exact absurd h (by simp [Except.map])

/-! ## One step after another

`part` and the functions of its items go on from one step to the next, as long as none fails. -/

section
variable {ε α β : Type} {result : Except ε α} {next : α → Except ε β}

/-- Two steps go well if the first does, and then the second. -/
theorem bind_eq_ok_iff {b : β} :
    result >>= next = .ok b ↔ ∃ a, result = .ok a ∧ next a = .ok b := by
  cases result with
  | error e => simp [bind, Except.bind]
  | ok a => simp [bind, Except.bind]

/-- Two steps fail if the first does, or if it does not and the second fails. -/
theorem bind_eq_error_iff {e : ε} :
    result >>= next = .error e ↔ result = .error e ∨ ∃ a, result = .ok a ∧ next a = .error e := by
  cases result with
  | error e => simp [bind, Except.bind]
  | ok a => simp [bind, Except.bind]

end

section
variable (bank : List Question)

/-- A list is resolved item by item, and then its ranges are summed. -/
theorem part_sequence (items : List QuotaSpec) : part bank (.sequence items) =
    places bank items >>= fun children => (summed "ARRAY" children).map .node := by
  rw [part]
  cases places bank items <;> rfl

/-- A mapping entry is resolved from its key, then from its value. -/
theorem part_pair (key value : QuotaSpec) : part bank (.pair key value) =
    part bank key >>= fun k => part bank value >>= fun v => (combine k v).map .node := by
  rw [part]
  cases part bank key with
  | error e => rfl
  | ok k => cases part bank value <;> rfl

/-- A mapping is resolved entry by entry, and then its ranges are summed. -/
theorem part_mapping (pairs : List (QuotaSpec × QuotaSpec)) : part bank (.mapping pairs) =
    entries bank pairs >>= fun children => (summed "DICT" children).map .node := by
  rw [part]
  cases entries bank pairs <;> rfl

/-- The items of a list are placed one after another. -/
theorem places_cons (item : QuotaSpec) (items : List QuotaSpec) : places bank (item :: items) =
    part bank item >>= fun p => place p >>= fun child =>
      places bank items >>= fun children => .ok (child :: children) := by
  rw [places]
  cases part bank item with
  | error e => rfl
  | ok p =>
    simp only [bind, Except.bind]
    cases place p with
    | error e => rfl
    | ok child => cases places bank items <;> rfl

/-- The entries of a mapping are combined one after another. -/
theorem entries_cons (key value : QuotaSpec) (pairs : List (QuotaSpec × QuotaSpec)) :
    entries bank ((key, value) :: pairs) =
      part bank key >>= fun k => part bank value >>= fun v => combine k v >>= fun child =>
        entries bank pairs >>= fun children => .ok (child :: children) := by
  rw [entries]
  cases part bank key with
  | error e => rfl
  | ok k =>
    simp only [bind, Except.bind]
    cases part bank value with
    | error e => rfl
    | ok v =>
      dsimp only
      cases combine k v with
      | error e => rfl
      | ok child => cases entries bank pairs <;> rfl

/-- A specification is resolved, and stands alone. -/
theorem build_eq (spec : QuotaSpec) : build spec bank = part bank spec >>= place := by
  unfold build
  cases part bank spec <;> rfl

end

/-! ## The six ways to make a part -/

/-- What a relation between specifications and parts has to satisfy to hold of every part made. -/
structure PartCases (bank : List Question) (M : QuotaSpec → Part → Prop) : Prop where
  count : ∀ n, M (.count n) (.range (Int.repr n) (.ofInt n))
  range : ∀ text r, CountRange.parse text = .ok r → M (.range text) (.range text r)
  tag : ∀ text q found, TagQuery.parse text = .ok q → q.select Question.tags bank = .ok found →
    found ≠ [] → M (.tag text) (.tag text found)
  sequence : ∀ items children,
    List.Forall₂ (fun item child => ∃ p, M item p ∧ place p = .ok child) items children →
      Fit children → M (.sequence items) (.node (together "ARRAY" children))
  pair : ∀ key value k v t, M key k → M value v → combine k v = .ok t →
    M (.pair key value) (.node t)
  mapping : ∀ pairs children,
    List.Forall₂ (fun (pair : QuotaSpec × QuotaSpec) child =>
      ∃ k v, M pair.1 k ∧ M pair.2 v ∧ combine k v = .ok child) pairs children →
      Fit children → M (.mapping pairs) (.node (together "DICT" children))

section
variable {bank : List Question} {M : QuotaSpec → Part → Prop}

mutual

/-- Induction on the parts of specifications. -/
theorem PartCases.of_part (H : PartCases bank M) :
    ∀ {spec : QuotaSpec} {p : Part}, part bank spec = .ok p → M spec p
  | .count n, p, h => by
    rw [part, Except.ok.injEq] at h
    exact h ▸ H.count n
  | .range text, p, h => by
    rw [part] at h
    cases hr : CountRange.parse text with
    | error e => rw [hr] at h; exact absurd h (by simp)
    | ok r =>
      rw [hr] at h
      exact Except.ok.inj h ▸ H.range text r hr
  | .tag text, p, h => by
    rw [part] at h
    obtain ⟨q, found, hq, hs, hne, rfl⟩ := tagPart_ok h
    exact H.tag text q found hq hs hne
  | .sequence items, p, h => by
    rw [part_sequence] at h
    obtain ⟨children, hc, h⟩ := bind_eq_ok_iff.mp h
    obtain ⟨hfit, rfl⟩ := node_of_summed h
    exact H.sequence items children (H.of_places hc) hfit
  | .pair key value, p, h => by
    rw [part_pair] at h
    obtain ⟨k, hk, h⟩ := bind_eq_ok_iff.mp h
    obtain ⟨v, hv, h⟩ := bind_eq_ok_iff.mp h
    cases ht : combine k v with
    | error e => rw [ht] at h; exact absurd h (by simp [Except.map])
    | ok t =>
      rw [ht] at h
      exact Except.ok.inj h ▸ H.pair key value k v t (H.of_part hk) (H.of_part hv) ht
  | .mapping pairs, p, h => by
    rw [part_mapping] at h
    obtain ⟨children, hc, h⟩ := bind_eq_ok_iff.mp h
    obtain ⟨hfit, rfl⟩ := node_of_summed h
    exact H.mapping pairs children (H.of_entries hc) hfit

/-- The children of a list are made from its items one by one. -/
theorem PartCases.of_places (H : PartCases bank M) :
    ∀ {items : List QuotaSpec} {children : List QuotaTree}, places bank items = .ok children →
      List.Forall₂ (fun item child => ∃ p, M item p ∧ place p = .ok child) items children
  | [], children, h => by
    rw [places, Except.ok.injEq] at h
    exact h ▸ .nil
  | item :: items, children, h => by
    rw [places_cons] at h
    obtain ⟨p, hp, h⟩ := bind_eq_ok_iff.mp h
    obtain ⟨child, ht, h⟩ := bind_eq_ok_iff.mp h
    obtain ⟨rest, hc, h⟩ := bind_eq_ok_iff.mp h
    exact Except.ok.inj h ▸ .cons ⟨p, H.of_part hp, ht⟩ (H.of_places hc)

/-- The children of a mapping are made from its entries one by one. -/
theorem PartCases.of_entries (H : PartCases bank M) :
    ∀ {pairs : List (QuotaSpec × QuotaSpec)} {children : List QuotaTree},
      entries bank pairs = .ok children →
      List.Forall₂ (fun (pair : QuotaSpec × QuotaSpec) child =>
        ∃ k v, M pair.1 k ∧ M pair.2 v ∧ combine k v = .ok child) pairs children
  | [], children, h => by
    rw [entries, Except.ok.injEq] at h
    exact h ▸ .nil
  | (key, value) :: pairs, children, h => by
    rw [entries_cons] at h
    obtain ⟨k, hk, h⟩ := bind_eq_ok_iff.mp h
    obtain ⟨v, hv, h⟩ := bind_eq_ok_iff.mp h
    obtain ⟨child, ht, h⟩ := bind_eq_ok_iff.mp h
    obtain ⟨rest, hc, h⟩ := bind_eq_ok_iff.mp h
    exact Except.ok.inj h ▸ .cons ⟨k, v, H.of_part hk, H.of_part hv, ht⟩ (H.of_entries hc)

end

/-- The tree of a specification is that of its part. -/
theorem PartCases.of_build (H : PartCases bank M) {spec : QuotaSpec} {t : QuotaTree}
    (h : build spec bank = .ok t) : ∃ p, M spec p ∧ place p = .ok t := by
  rw [build_eq] at h
  obtain ⟨p, hp, hplace⟩ := bind_eq_ok_iff.mp h
  exact ⟨p, H.of_part hp, hplace⟩

end

end QuotaTree

end ExamPaper
