import ExamPaper.Proofs.Quota.Denotation
import ExamPaper.Proofs.Quota.Stock

/-!
# The range of a tree holds the totals of its specification

The range at the root of a tree is computed from the inside out, from minima and maxima that are
summed, narrowed, and cut to what a bank holds. It is to hold the totals that the specification
denotes.

> The totals of a specification are the counts in the range at the root of the tree built from it,
> and a mapping entry that is refused for its empty range has none (`build_totals`).

Sums of intervals are intervals again (`sum_between_iff`), which is why a minimum and a maximum at
every node are enough. The sums of a tree that is built are exact, for where one does not fit a word
no tree is built.
-/

namespace ExamPaper

namespace QuotaTree

open QuotaSpec

/-! ## Sums of intervals -/

/-- The counts in the range at the root of a tree are those that satisfy `P`, and there are some. -/
structure TotalsAre (P : Nat → Prop) (t : QuotaTree) : Prop where
  min_le_max : t.quota.min ≤ t.quota.max
  between_iff : ∀ n, (t.quota.min ≤ n ∧ n ≤ t.quota.max) ↔ P n

/-- The sum of minimums is not above that of maximums. -/
theorem sum_min_le_sum_max {α : Type} {R : α → Nat → Prop} {items : List α}
    {children : List QuotaTree}
    (h : List.Forall₂ (fun item child => TotalsAre (R item) child) items children) :
    (children.map (·.quota.min)).sum ≤ (children.map (·.quota.max)).sum :=
  List.sum_le_sum (forall_of_forall₂ (fun _ _ htotals => htotals.min_le_max) h)

/-- A count between the sums of the minima and the maxima is a sum of counts between them. -/
theorem sum_between_iff {α : Type} {R : α → Nat → Prop} {items : List α}
    {children : List QuotaTree}
    (h : List.Forall₂ (fun item child => TotalsAre (R item) child) items children) :
    ∀ {n : Nat},
      ((children.map (·.quota.min)).sum ≤ n ∧ n ≤ (children.map (·.quota.max)).sum) ↔
        ∃ ns, List.Forall₂ R items ns ∧ ns.sum = n := by
  induction h with
  | nil =>
    intro n
    constructor
    · rintro ⟨-, hn⟩
      exact ⟨[], .nil, (Nat.le_zero.mp hn).symm⟩
    · rintro ⟨ns, hns, rfl⟩
      obtain rfl := List.forall₂_nil_left_iff.mp hns
      exact ⟨Nat.le_refl 0, Nat.le_refl 0⟩
  | @cons item child items children hchild hchildren ih =>
    have hle := sum_min_le_sum_max hchildren
    intro n
    rw [List.map_cons, List.map_cons, List.sum_cons, List.sum_cons]
    constructor
    · rintro ⟨hmin, hmax⟩
      -- the first item takes its minimum, or what the others cannot take
      have hfirst := hchild.min_le_max
      obtain ⟨k, m, hk, hm, hkm⟩ : ∃ k m, (child.quota.min ≤ k ∧ k ≤ child.quota.max) ∧
          ((children.map (·.quota.min)).sum ≤ m ∧ m ≤ (children.map (·.quota.max)).sum) ∧
          k + m = n := by
        by_cases henough : n ≤ child.quota.min + (children.map (·.quota.max)).sum
        · exact ⟨child.quota.min, n - child.quota.min, by omega, by omega, by omega⟩
        · exact ⟨n - (children.map (·.quota.max)).sum, (children.map (·.quota.max)).sum,
            by omega, by omega, by omega⟩
      obtain ⟨ns, hns, rfl⟩ := ih.mp hm
      exact ⟨k :: ns, .cons ((hchild.between_iff k).mp hk) hns, hkm⟩
    · rintro ⟨ns, hns, rfl⟩
      obtain ⟨k, ms, hk, hms, rfl⟩ := List.forall₂_cons_left_iff.mp hns
      have hfirst := (hchild.between_iff k).mpr hk
      have hrest := ih.mpr ⟨ms, hms, rfl⟩
      rw [List.sum_cons]
      omega

/-! ## The parts of a specification -/

/-- What a part has to do with the totals of the specification that it is made from. -/
def DenotedBy (bank : List Question) (spec : QuotaSpec) : Part → Prop
  | .range _ r => ∀ r', spec.Ranges r' ↔ r' = r
  | .tag _ found => ∃ text, spec = .tag text ∧ found.length = matching bank text
  | .node t => spec.Nested ∧ TotalsAre (Denotes bank spec) t

variable {bank : List Question}

/-- The totals of a list or mapping are the sums of one total of each item. -/
theorem totalsAre_together {α : Type} {R : α → Nat → Prop} {items : List α} {kind : String}
    {children : List QuotaTree}
    (h : List.Forall₂ (fun item child => TotalsAre (R item) child) items children) :
    TotalsAre (fun n => ∃ ns, List.Forall₂ R items ns ∧ ns.sum = n) (together kind children) :=
  ⟨sum_min_le_sum_max h, fun _ => sum_between_iff h⟩

theorem TotalsAre.congr {P Q : Nat → Prop} {t : QuotaTree} (h : TotalsAre P t)
    (hPQ : ∀ n, P n ↔ Q n) : TotalsAre Q t :=
  ⟨h.min_le_max, fun n => (h.between_iff n).trans (hPQ n)⟩

/-- The totals of two ranges are those that are in both. -/
theorem totalsAre_of_narrow {label : String} {own sub : CountRange} {min max : Nat} {t : QuotaTree}
    (h : narrow label own sub = .ok (min, max)) (hmin : t.quota.min = min)
    (hmax : t.quota.max = max) : TotalsAre (fun n => own.Contains n ∧ sub.Contains n) t := by
  obtain ⟨hle, hcounts⟩ := narrow_ok h
  subst hmin hmax
  exact ⟨hle, hcounts⟩

/-- An item that stands alone has the totals that it denotes. -/
theorem totalsAre_of_place {spec : QuotaSpec} {p : Part} {t : QuotaTree}
    (hp : DenotedBy bank spec p) (h : place p = .ok t) : TotalsAre (Denotes bank spec) t := by
  rcases place_ok h with ⟨label, min, max, rfl, rfl⟩ | ⟨label, found, rfl, rfl⟩ | rfl
  · have hself : spec.Ranges ⟨min, .finite max⟩ := (hp _).mpr rfl
    exact ⟨hself.contains_min.2, fun n => (denotes_range_iff hp).symm⟩
  · obtain ⟨text, rfl, -⟩ := hp
    refine ⟨Nat.le_refl 1, fun n => ?_⟩
    rw [denotes_tag_iff]
    exact ⟨fun h => Nat.le_antisymm h.2 h.1, fun h => ⟨h.ge, h.le⟩⟩
  · exact hp.2

/-- The counts in the bank of a tag and in the range beside it. -/
theorem contains_limited_iff {found : List Question} {r : CountRange} {n : Nat} :
    CountRange.Contains ⟨0, .finite found.length⟩ n ∧ r.Contains n ↔
      r.Contains n ∧ n ≤ found.length := by
  show (0 ≤ n ∧ n ≤ found.length) ∧ _ ↔ _
  rw [and_comm, and_iff_right (Nat.zero_le n)]

/-- A mapping entry has the totals that it denotes. -/
theorem totalsAre_of_combine {key value : QuotaSpec} {k v : Part} {t : QuotaTree}
    (hk : DenotedBy bank key k) (hv : DenotedBy bank value v) (h : combine k v = .ok t) :
    TotalsAre (Denotes bank (.pair key value)) t := by
  rcases combine_ok h with ⟨label, found, other, r, hparts, min, max, hn, rfl⟩ |
    ⟨other, r, q, children, rfl, rfl, hne, min, max, hn, rfl⟩
  · -- a tag and a range, in either order
    refine (totalsAre_of_narrow hn rfl rfl).congr fun n => ?_
    rw [contains_limited_iff]
    rcases hparts with ⟨rfl, rfl⟩ | ⟨rfl, rfl⟩
    · obtain ⟨text, rfl, hlength⟩ := hk
      rw [denotes_tagCount_iff hv, hlength]
    · obtain ⟨text, rfl, hlength⟩ := hv
      rw [denotes_countTag_iff hk, hlength]
  · -- a range before a branch
    obtain ⟨hnested, hvalue⟩ := hv
    refine (totalsAre_of_narrow hn rfl rfl).congr fun n => ?_
    rw [denotes_narrowed_iff hk hnested, ← hvalue.between_iff]
    exact Iff.rfl

/-- As many questions are selected as satisfy the query. -/
theorem length_select {text : String} {q : TagQuery} (hq : TagQuery.parse text = .ok q)
    {found : List Question} (h : q.select Question.tags bank = .ok found) :
    found.length = matching bank text := by
  have htext : ∀ tags, TagQuery.textHolds text tags = q.holds tags := by
    intro tags
    unfold TagQuery.textHolds
    rw [hq]
  induction bank generalizing found with
  | nil =>
    obtain rfl := Except.ok.inj h
    rfl
  | cons x bank ih =>
    rw [TagQuery.select] at h
    cases hx : q.holds x.tags with
    | error e => rw [hx] at h; exact absurd h (by simp)
    | ok answer =>
      simp only [hx] at h
      cases hrest : q.select Question.tags bank with
      | error e => rw [hrest] at h; exact absurd h (by simp)
      | ok rest =>
        simp only [hrest, Except.ok.injEq] at h
        subst h
        have hlength : rest.length = _ := ih hrest
        unfold matching at hlength ⊢
        cases answer with
        | true =>
          rw [if_pos rfl, List.length_cons, hlength,
            List.countP_cons_of_pos (by simp [htext, hx])]
        | false =>
          rw [if_neg (by decide), hlength, List.countP_cons_of_neg (by simp [htext, hx])]

/-- Every part has the totals that its specification denotes. -/
theorem denotedBy_cases (bank : List Question) : PartCases bank (DenotedBy bank) where
  count _ := ranges_count_iff
  range _ _ h := ranges_range_iff h
  tag text _ _ hq hs _ := ⟨text, rfl, length_select hq hs⟩
  sequence items children h _ := by
    refine ⟨.sequence, (totalsAre_together ?_).congr fun n => denotes_sequence_iff.symm⟩
    exact h.imp fun item child ⟨p, hp, ht⟩ => totalsAre_of_place hp ht
  pair _ _ _ _ _ hk hv ht := ⟨.pair, totalsAre_of_combine hk hv ht⟩
  mapping pairs children h _ := by
    refine ⟨.mapping, (totalsAre_together ?_).congr fun n => denotes_mapping_iff.symm⟩
    exact h.imp fun pair child ⟨k, v, hk, hv, ht⟩ => totalsAre_of_combine hk hv ht

/-! ## Empty ranges -/

/-- An entry that is refused for an empty range denotes no totals. -/
theorem not_denotes_of_emptyRange {key value : QuotaSpec} {k v : Part} {l : String} {lo hi : Nat}
    (hk : DenotedBy bank key k) (hv : DenotedBy bank value v)
    (h : combine k v = .error (.emptyRange l lo hi)) (n : Nat) :
    ¬ Denotes bank (.pair key value) n := by
  rcases combine_emptyRange h with ⟨label, found, other, r, hparts, hn⟩ |
    ⟨other, r, t, rfl, rfl, hn⟩
  · have hempty := narrow_emptyRange hn n
    rw [contains_limited_iff] at hempty
    rcases hparts with ⟨rfl, rfl⟩ | ⟨rfl, rfl⟩
    · obtain ⟨text, rfl, hlength⟩ := hk
      rw [denotes_tagCount_iff hv, ← hlength]
      exact hempty
    · obtain ⟨text, rfl, hlength⟩ := hv
      rw [denotes_countTag_iff hk, ← hlength]
      exact hempty
  · obtain ⟨hnested, htotals⟩ := hv
    rw [denotes_narrowed_iff hk hnested, ← htotals.between_iff]
    exact narrow_emptyRange hn n

/-! ## The tree of a specification -/

/-- **The totals of a specification.** The range at the root of a tree that is built from a
specification holds the totals that the specification asks for and no others. A mapping entry that
cannot be built because its range would be empty asks for no total. -/
theorem build_totals (spec : QuotaSpec) (bank : List Question) :
    (∀ tree, build spec bank = .ok tree →
      ∀ n, (tree.quota.min ≤ n ∧ n ≤ tree.quota.max) ↔ Denotes bank spec n) ∧
    ∀ key value k v, part bank key = .ok k → part bank value = .ok v →
      ∀ label lo hi, combine k v = .error (.emptyRange label lo hi) →
        ∀ n, ¬ Denotes bank (.pair key value) n := by
  constructor
  · intro tree hbuild
    obtain ⟨p, hp, hplace⟩ := (denotedBy_cases bank).of_build hbuild
    have htotals : TotalsAre (Denotes bank spec) tree := totalsAre_of_place hp hplace
    exact htotals.between_iff
  · intro key value k v hk hv label lo hi hempty
    exact not_denotes_of_emptyRange ((denotedBy_cases bank).of_part hk)
      ((denotedBy_cases bank).of_part hv) hempty

/-- Three to five questions are asked for, and no two of the one question `c`. -/
theorem build_totals_sampleTree :
    build sampleSpec sampleBank = .ok sampleTree ∧
    (∀ n, (3 ≤ n ∧ n ≤ 5) ↔ Denotes sampleBank sampleSpec n) ∧
    part sampleBank (.tag "c") = .ok (.tag "c" (tagged "c" ["c0"])) ∧
    part sampleBank (.count 2) = .ok (.range "2" ⟨2, .finite 2⟩) ∧
    combine (.tag "c" (tagged "c" ["c0"])) (.range "2" ⟨2, .finite 2⟩) =
      .error (.emptyRange "c" 2 1) ∧
    ∀ n, ¬ Denotes sampleBank (.pair (.tag "c") (.count 2)) n := by
  have htag : part sampleBank (.tag "c") = .ok (.tag "c" (tagged "c" ["c0"])) := rfl
  have hcount : part sampleBank (.count 2) = .ok (.range "2" ⟨2, .finite 2⟩) := rfl
  have hempty : combine (.tag "c" (tagged "c" ["c0"])) (.range "2" ⟨2, .finite 2⟩) =
      .error (.emptyRange "c" 2 1) := rfl
  obtain ⟨htotals, hnone⟩ := build_totals sampleSpec sampleBank
  exact ⟨build_sampleSpec, htotals sampleTree build_sampleSpec, htag, hcount, hempty,
    hnone _ _ _ _ htag hcount _ _ _ hempty⟩

end QuotaTree

end ExamPaper
