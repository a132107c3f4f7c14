import ExamPaper.Proofs.Quota.Parts
import ExamPaper.Proofs.Quota.Ranges

/-!
# Correct trees can be filled and drawn

The range of a node built from a specification comes from several rules: a lone tag takes one
question, a paired one as many as its range and its bank allow, a list or mapping adds up its items,
and a range before either narrows the sum. `Built` collects what all of them keep, and
`built_of_build` is the induction over the specification:

> A tree built has nothing taken, and draws from parts of the bank; and if it is correct, then every
> range fits and no leaf asks for more than its bank holds.

Nothing has to be assumed about sums: where one does not fit a word, there is no tree.
-/

namespace ExamPaper

namespace QuotaTree

/-- There is something to take from: a leaf has questions, as many as it may take, and a branch has
children. -/
def Stocked : QuotaTree → Prop
  | leaf q bank => bank ≠ [] ∧ q.max ≤ bank.length
  | branch _ children => children ≠ []

theorem stocked_reset (t : QuotaTree) : Stocked t.reset ↔ Stocked t := by
  cases t with
  | leaf q bank => rfl
  | branch q children =>
    rw [reset_branch]
    simp [Stocked]

/-- What there is to take from does not depend on the numbers taken. -/
theorem stocked_of_reset_eq {t u : QuotaTree} (h : t.reset = u.reset)
    (hu : Everywhere Stocked u) : Everywhere Stocked t :=
  everywhere_of_reset_eq stocked_reset h hu

/-- Nothing is taken. -/
def Fresh (t : QuotaTree) : Prop := t.quota.taken = 0

/-! ## What every tree built has -/

/-- What holds of the trees built over a bank. -/
structure Built (bank : List Question) (t : QuotaTree) : Prop where
  fresh : Everywhere Fresh t
  fromBank : ∀ l ∈ t.leaves, l.bank.Sublist bank
  /-- The conditions are on the tree as it is in the end: an item without questions makes all that
  is built around it incorrect. -/
  fits : t.isCorrect = true → Everywhere RangeFits t ∧ Everywhere Stocked t

/-- A leaf over questions of the bank has what trees built over the bank have. -/
theorem built_leaf {bank found : List Question} {label : String} {min max : Nat}
    (hfound : found.Sublist bank) (hne : found ≠ []) (hle : min ≤ max)
    (hmax : max ≤ found.length) : Built bank (leaf { label, min, max } found) where
  fresh := .leaf rfl
  fromBank := by
    intro l hl
    obtain rfl := List.mem_singleton.mp hl
    exact hfound
  fits _ := ⟨.leaf hle, .leaf ⟨hne, hmax⟩⟩

/-- The questions below a branch are those below its children. -/
theorem fromBank_branch {bank : List Question} {q : Quota} {children : List QuotaTree}
    (h : ∀ c ∈ children, ∀ l ∈ c.leaves, l.bank.Sublist bank) :
    ∀ l ∈ (branch q children).leaves, l.bank.Sublist bank := by
  intro l hl
  rw [leaves_branch, List.mem_flatMap] at hl
  obtain ⟨c, hc, hlc⟩ := hl
  exact h c hc l hlc

/-- A range that stands alone has no children, so nothing is promised of it but that it is fresh. -/
theorem built_childless {bank : List Question} {label : String} {min max : Nat} :
    Built bank (branch { label, min, max } []) where
  fresh := .branch rfl (by simp)
  fromBank := fromBank_branch (by simp)
  fits hc := absurd rfl (isCorrect_branch.mp hc).1

/-- Trees put together keep what holds of each of them. -/
theorem built_together {bank : List Question} {kind : String} {children : List QuotaTree}
    (h : ∀ c ∈ children, Built bank c) : Built bank (together kind children) where
  fresh := .branch rfl fun c hc => (h c hc).fresh
  fromBank := fromBank_branch fun c hc => (h c hc).fromBank
  fits := by
    intro hcorrect
    obtain ⟨hne, hchildren⟩ := isCorrect_branch.mp hcorrect
    have hfits : ∀ c ∈ children, Everywhere RangeFits c ∧ Everywhere Stocked c :=
      fun c hc => (h c hc).fits (hchildren c hc)
    have hmin : (children.map fun c => c.quota.min).sum ≤
        (children.map fun c => c.quota.max).sum :=
      List.sum_le_sum fun c hc => (hfits c hc).1.root.min_le_max
    refine ⟨.branch ?_ fun c hc => (hfits c hc).1, .branch hne fun c hc => (hfits c hc).2⟩
    exact ⟨Nat.le_refl _, hmin, Nat.le_refl _⟩

/-- Narrowing the range of a branch leaves it within the sums of its children. -/
theorem built_narrowed {bank : List Question} {q : Quota} {children : List QuotaTree}
    {r : CountRange} {min max : Nat} (h : Built bank (branch q children))
    (hn : narrow q.label r ⟨q.min, .finite q.max⟩ = .ok (min, max)) :
    Built bank (branch { q with min, max } children) where
  fresh := .branch h.fresh.root fun _ hc => h.fresh.child hc
  fromBank := h.fromBank
  fits := by
    intro hcorrect
    obtain ⟨hle, hcounts⟩ := narrow_ok hn
    -- both ends of the narrower range are counts of the wider one
    have hlow : q.min ≤ min := ((hcounts min).mp ⟨Nat.le_refl _, hle⟩).2.1
    have hhigh : max ≤ q.max := ((hcounts max).mp ⟨hle, Nat.le_refl _⟩).2.2
    obtain ⟨hr, hs⟩ := h.fits hcorrect
    obtain ⟨hmin, _, hmax⟩ := hr.root
    refine ⟨.branch ?_ fun _ hc => hr.child hc, .branch hs.root fun _ hc => hs.child hc⟩
    exact ⟨Nat.le_trans hmin hlow, hle, Nat.le_trans hhigh hmax⟩

/-! ## The induction over the specification -/

/-- What holds of the parts built over a bank. -/
def BuiltPart (bank : List Question) : Part → Prop
  | .range _ _ => True
  | .tag _ found => found.Sublist bank ∧ found ≠ []
  | .node t => Built bank t

/-- What is built holds of an item that stands alone. -/
theorem built_of_place {bank : List Question} {p : Part} {t : QuotaTree} (hp : BuiltPart bank p)
    (h : place p = .ok t) : Built bank t := by
  rcases place_ok h with ⟨label, min, max, _, rfl⟩ | ⟨label, found, rfl, rfl⟩ | rfl
  · exact built_childless
  · obtain ⟨hsub, hne⟩ := hp
    exact built_leaf hsub hne (Nat.le_refl 1) (List.length_pos_of_ne_nil hne)
  · exact hp

/-- What is built holds of a mapping entry. -/
theorem built_of_combine {bank : List Question} {k v : Part} {t : QuotaTree}
    (hk : BuiltPart bank k) (hv : BuiltPart bank v) (h : combine k v = .ok t) : Built bank t := by
  rcases combine_ok h with ⟨label, found, other, r, hparts, min, max, hn, rfl⟩ |
    ⟨other, r, q, children, rfl, rfl, _, min, max, hn, rfl⟩
  · have hfound : found.Sublist bank ∧ found ≠ [] := by
      rcases hparts with ⟨rfl, rfl⟩ | ⟨rfl, rfl⟩
      · exact hk
      · exact hv
    obtain ⟨hle, hcounts⟩ := narrow_ok hn
    have hmax : max ≤ found.length := ((hcounts max).mp ⟨hle, Nat.le_refl _⟩).1.2
    exact built_leaf hfound.1 hfound.2 hle hmax
  · exact built_narrowed hv hn

/-- A query picks questions of the bank and keeps their order. -/
theorem select_sublist {q : TagQuery} {bank found : List Question}
    (h : q.select Question.tags bank = .ok found) : found.Sublist bank := by
  induction bank generalizing found with
  | nil => rw [← Except.ok.inj h]
  | cons x bank ih =>
    rw [TagQuery.select] at h
    cases hx : q.holds x.tags with
    | error e => rw [hx] at h; exact absurd h (by simp)
    | ok answer =>
      simp only [hx] at h
      cases hrest : q.select Question.tags bank with
      | error e => rw [hrest] at h; exact absurd h (by simp)
      | ok rest =>
        simp only [hrest, Except.ok.injEq] at h
        subst h
        split
        · exact (ih hrest).cons_cons x
        · exact (ih hrest).cons x

theorem forall_of_forall₂ {α β : Type} {R : α → β → Prop} {P : β → Prop}
    (hRP : ∀ a b, R a b → P b) {as : List α} {bs : List β} (h : List.Forall₂ R as bs) :
    ∀ b ∈ bs, P b := by
  induction h with
  | nil => simp
  | cons hab _ ih => exact List.forall_mem_cons.mpr ⟨hRP _ _ hab, ih⟩

/-- Every part has what trees built over the bank have. -/
theorem builtPart_cases (bank : List Question) : PartCases bank fun _ p => BuiltPart bank p where
  count _ := trivial
  range _ _ _ := trivial
  tag _ _ _ _ hs hne := ⟨select_sublist hs, hne⟩
  sequence _ _ h _ :=
    built_together (forall_of_forall₂ (fun _ _ ⟨_, hp, ht⟩ => built_of_place hp ht) h)
  pair _ _ _ _ _ hk hv ht := built_of_combine hk hv ht
  mapping _ _ h _ :=
    built_together (forall_of_forall₂ (fun _ _ ⟨_, _, hk, hv, ht⟩ => built_of_combine hk hv ht) h)

/-- Every tree that is built has what trees built over the bank have. -/
theorem built_of_build {spec : QuotaSpec} {bank : List Question} {t : QuotaTree}
    (h : build spec bank = .ok t) : Built bank t := by
  obtain ⟨p, hp, hplace⟩ := (builtPart_cases bank).of_build h
  exact built_of_place hp hplace

/-- **Correct trees fit.** In a correct tree built from a specification, every leaf has questions and
may take at most all of them, every branch has children and a range that they can make up, no range
is empty, and nothing is taken. -/
theorem build_fits {spec : QuotaSpec} {bank : List Question} {t : QuotaTree}
    (hbuild : build spec bank = .ok t) (hcorrect : t.isCorrect = true) :
    t.Everywhere Stocked ∧ t.Everywhere RangeFits ∧ t.Everywhere Fresh := by
  have h := built_of_build hbuild
  obtain ⟨hr, hs⟩ := h.fits hcorrect
  exact ⟨hs, hr, h.fresh⟩

def sampleBank : List Question :=
  tagged "a" ["a0", "a1", "a2"] ++ tagged "b" ["b0", "b1"] ++ tagged "c" ["c0"]

def sampleSpec : QuotaSpec :=
  .mapping [
    (.range "2-4", .sequence [.pair (.tag "a") (.range "*"), .pair (.tag "b") (.range "*")]),
    (.tag "c", .count 1)]

set_option maxRecDepth 1024 in
theorem build_sampleSpec : build sampleSpec sampleBank = .ok sampleTree := rfl

theorem build_fits_sampleTree :
    build sampleSpec sampleBank = .ok sampleTree ∧ sampleTree.isCorrect = true ∧
    sampleTree.Everywhere Stocked ∧ sampleTree.Everywhere RangeFits ∧
    sampleTree.Everywhere Fresh := by
  have hcorrect : sampleTree.isCorrect = true := rfl
  exact ⟨build_sampleSpec, hcorrect, build_fits build_sampleSpec hcorrect⟩

end QuotaTree

end ExamPaper
