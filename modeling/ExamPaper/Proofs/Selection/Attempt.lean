import ExamPaper.Proofs.Quota.Stock
import ExamPaper.Proofs.Selection.Sample
import ExamPaper.Selection.Search

/-!
# What an attempt selects

An attempt fills the tree up to a random total of its range (`filledFor`) and draws from every leaf
what it has taken. Whatever numbers had been taken in the tree it is given, it starts from none.

> A selection is one block for each leaf, in the order of the leaves: as many questions as the leaf
> has taken, and a part of its bank (`attempt_ok`). If every range fits and every leaf has the
> questions it may take, there is a selection (`attempt_isOk`), and every block is within the range
> of its leaf (`attempt_within`).
-/

namespace ExamPaper

namespace Search

open QuotaTree

variable {ρ : Type} [Draws ρ]

/-! ## Drawing the leaves -/

/-- What is drawn from a leaf: as many questions as it has taken, which are a part of its bank. -/
structure BlockOf (l : QuotaLeaf) (block : List Question) : Prop where
  length_eq : block.length = l.quota.taken
  subperm : block.Subperm l.bank

/-- The questions drawn for some leaves are blocks, one for each leaf. -/
theorem drawLeaves_ok : ∀ {leaves : List QuotaLeaf} {qs : List Question} {r : ρ},
    (drawLeaves leaves r).1 = .ok qs →
      ∃ blocks, qs = List.flatten blocks ∧ List.Forall₂ BlockOf leaves blocks := by
  intro leaves
  induction leaves with
  | nil =>
    intro qs r h
    obtain rfl := Except.ok.inj h
    exact ⟨[], rfl, .nil⟩
  | cons l leaves ih =>
    intro qs r h
    unfold drawLeaves at h
    cases hblock : Sample.draw l.bank l.quota.taken r with
    | mk result r' =>
      rw [hblock] at h
      cases result with
      | error e => exact absurd h (by simp)
      | ok block =>
        cases hrest : drawLeaves leaves r' with
        | mk result r'' =>
          simp only [hrest] at h
          cases result with
          | error e => exact absurd h (by simp)
          | ok rest =>
            obtain rfl := Except.ok.inj h
            obtain ⟨hlength, hpart⟩ := Sample.draw_ok (congrArg Prod.fst hblock)
            obtain ⟨blocks, rfl, hblocks⟩ := ih (congrArg Prod.fst hrest)
            exact ⟨block :: blocks, rfl, .cons ⟨hlength, hpart⟩ hblocks⟩

/-- As many questions are drawn as the leaves have taken. -/
theorem length_flatten_blocks {leaves : List QuotaLeaf} {blocks : List (List Question)}
    (h : List.Forall₂ BlockOf leaves blocks) :
    blocks.flatten.length = (leaves.map fun l => l.quota.taken).sum := by
  induction h with
  | nil => rfl
  | cons hblock _ ih =>
    rw [List.flatten_cons, List.length_append, List.map_cons, List.sum_cons, ih,
      hblock.length_eq]

/-- Leaves that have taken no more than they hold can all be drawn. -/
theorem drawLeaves_isOk : ∀ {leaves : List QuotaLeaf} (r : ρ),
    (∀ l ∈ leaves, l.quota.taken ≤ l.bank.length) → ∃ qs, (drawLeaves leaves r).1 = .ok qs := by
  intro leaves
  induction leaves with
  | nil => intro r _; exact ⟨[], rfl⟩
  | cons l leaves ih =>
    intro r h
    obtain ⟨hl, hleaves⟩ := List.forall_mem_cons.mp h
    obtain ⟨block, hblock⟩ := Sample.draw_isOk hl r
    cases hdraw : Sample.draw l.bank l.quota.taken r with
    | mk result r' =>
      rw [hdraw] at hblock
      obtain rfl : result = .ok block := hblock
      obtain ⟨rest, hrest⟩ := ih r' hleaves
      cases hdraws : drawLeaves leaves r' with
      | mk result r'' =>
        rw [hdraws] at hrest
        obtain rfl : result = .ok rest := hrest
        exact ⟨block ++ rest, by simp only [drawLeaves, hdraw, hdraws]⟩

/-! ## The tree that an attempt fills -/

/-- The tree as an attempt fills it, up to a random total of its range. -/
def filledFor (tree : QuotaTree) (r : ρ) : Filled ρ :=
  let (total, r) := Draws.between tree.quota.min tree.quota.max r
  tree.reset.fillTo total r

/-- An attempt fails if the tree cannot be filled; otherwise it draws the leaves of the tree filled,
which decide the rest. -/
theorem attempt_eq (tree : QuotaTree) (r : ρ) :
    (attempt tree r).1 =
      match (filledFor tree r).result with
      | .error e => .error (.quota e)
      | .ok () =>
        (drawLeaves (filledFor tree r).tree.leaves (filledFor tree r).rng).1.map attemptOf := by
  unfold attempt filledFor
  simp only [quota_reset]
  generalize (fillTo _ tree.reset _ : Filled ρ) = filled
  obtain ⟨result, t, r'⟩ := filled
  cases result with
  | error e => rfl
  | ok u =>
    dsimp only
    generalize drawLeaves t.leaves r' = drawn
    obtain ⟨result, r''⟩ := drawn
    cases result with
    | error e => rfl
    | ok questions => rfl

/-- Filling starts from nothing taken and changes nothing but the numbers taken. -/
theorem filledFor_steady (tree : QuotaTree) (r : ρ) :
    Everywhere Steady (filledFor tree r).tree ∧ (filledFor tree r).tree.reset = tree.reset := by
  refine fillTo_of_grows (P := fun t => Everywhere Steady t ∧ t.reset = tree.reset) ?_ _ _
    ⟨steady_reset tree, reset_reset tree⟩
  intro t t' ht hgrows
  exact ⟨hgrows.steady ht.1, hgrows.reset_eq.trans ht.2⟩

/-- A tree that is filled for an attempt has taken a total of its range. -/
theorem filledFor_taken {tree : QuotaTree} {r : ρ} (h : (filledFor tree r).result = .ok ()) :
    tree.quota.min ≤ (filledFor tree r).tree.quota.taken ∧
      (filledFor tree r).tree.quota.taken ≤ tree.quota.max := by
  obtain ⟨hmin, hmax, htaken⟩ := fillTo_taken h
  rw [quota_reset] at hmin hmax htaken
  rw [show (filledFor tree r).tree.quota.taken = _ from htaken]
  exact ⟨Nat.le_trans hmin (Nat.le_max_right ..), Nat.max_le.mpr ⟨Nat.zero_le _, hmax⟩⟩

/-- Filling for an attempt goes well if the ranges of the tree fit. -/
theorem filledFor_isOk {tree : QuotaTree} (hr : Everywhere RangeFits tree) (r : ρ) :
    (filledFor tree r).result = .ok () := by
  have hfit : Everywhere RangeFits tree.reset := rangeFits_of_reset_eq (reset_reset tree) hr
  have hle : tree.quota.min ≤ tree.quota.max := hr.root.min_le_max
  refine (fillTo_ok_iff hfit (steady_reset tree) _ _).mpr ?_
  rw [quota_reset]
  exact ⟨Draws.le_between _ _ r, Draws.between_le hle r⟩

/-! ## The selection -/

/-- The questions of an attempt are blocks, one for each leaf of the filled tree. -/
theorem attempt_ok {tree : QuotaTree} {r : ρ} {a : Attempt} (h : (attempt tree r).1 = .ok a) :
    (filledFor tree r).result = .ok () ∧
      ∃ blocks, a.questions = List.flatten blocks ∧
        List.Forall₂ BlockOf (filledFor tree r).tree.leaves blocks := by
  rw [attempt_eq] at h
  cases hresult : (filledFor tree r).result with
  | error e => rw [hresult] at h; exact absurd h (by simp)
  | ok u =>
    simp only [hresult] at h
    cases hdraws :
        (drawLeaves (filledFor tree r).tree.leaves (filledFor tree r).rng).1 with
    | error e => rw [hdraws] at h; exact absurd h (by simp [Except.map])
    | ok qs =>
      rw [hdraws] at h
      obtain rfl := Except.ok.inj h
      exact ⟨rfl, drawLeaves_ok hdraws⟩

/-- As many questions are selected as the root has taken. -/
theorem attempt_length {tree : QuotaTree} {r : ρ} {a : Attempt}
    (h : (attempt tree r).1 = .ok a) :
    a.questions.length = (filledFor tree r).tree.quota.taken := by
  obtain ⟨_, blocks, hquestions, hblocks⟩ := attempt_ok h
  have hsteady := (filledFor_steady tree r).1
  rw [hquestions, length_flatten_blocks hblocks]
  exact sum_taken_leaves (hsteady.mono fun _ hu => hu.takesSum)

/-- What holds of every leaf filled and every block drawn from it, and does not depend on the
numbers taken, holds of the leaves that the attempt was given. -/
theorem attempt_blocks {R : QuotaLeaf → List Question → Prop}
    (hreset : ∀ l block, R l.reset block ↔ R l block) {tree : QuotaTree} {r : ρ} {a : Attempt}
    (h : (attempt tree r).1 = .ok a)
    (hR : ∀ l ∈ (filledFor tree r).tree.leaves, ∀ block, BlockOf l block → R l block) :
    ∃ blocks, a.questions = List.flatten blocks ∧ List.Forall₂ R tree.leaves blocks := by
  obtain ⟨_, blocks, hquestions, hblocks⟩ := attempt_ok h
  refine ⟨blocks, hquestions, ?_⟩
  refine forall₂_leaves_of_reset_eq hreset (filledFor_steady tree r).2 ?_
  refine ((List.forall₂_and_left _ _).mpr ⟨hR, hblocks⟩).imp ?_
  intro l block ⟨himp, hblock⟩
  exact himp block hblock

/-- An attempt goes well if the ranges of the tree fit and there are questions for them. -/
theorem attempt_isOk {tree : QuotaTree} (hr : Everywhere RangeFits tree)
    (hs : Everywhere Stocked tree) (r : ρ) : ∃ a, (attempt tree r).1 = .ok a := by
  obtain ⟨hsteady, hsame⟩ := filledFor_steady tree r
  have hstocked : Everywhere Stocked (filledFor tree r).tree := stocked_of_reset_eq hsame hs
  have henough : ∀ l ∈ (filledFor tree r).tree.leaves, l.quota.taken ≤ l.bank.length := by
    intro l hl
    have hmax : l.quota.taken ≤ l.quota.max := (hsteady.of_mem_leaves l hl).withinMax
    have hbank : l.quota.max ≤ l.bank.length := (hstocked.of_mem_leaves l hl).2
    exact Nat.le_trans hmax hbank
  obtain ⟨qs, hqs⟩ := drawLeaves_isOk (filledFor tree r).rng henough
  refine ⟨attemptOf qs, ?_⟩
  rw [attempt_eq, filledFor_isOk hr r, hqs]
  rfl

/-- What a leaf gives to a selection: as many questions as its range allows, from pairwise different
positions of its bank. -/
structure Contribution (l : QuotaLeaf) (block : List Question) : Prop where
  min_le : l.quota.min ≤ block.length
  le_max : block.length ≤ l.quota.max
  positions : Sample.AtDistinctPositions block l.bank

/-- Only the range and the bank of the leaf matter. -/
theorem contribution_reset (l : QuotaLeaf) (block : List Question) :
    Contribution l.reset block ↔ Contribution l block :=
  ⟨fun h => ⟨h.min_le, h.le_max, h.positions⟩, fun h => ⟨h.min_le, h.le_max, h.positions⟩⟩

/-- A selection keeps the range of the root and of every leaf. -/
theorem attempt_within {tree : QuotaTree} {r : ρ} {a : Attempt} (hr : Everywhere RangeFits tree)
    (h : (attempt tree r).1 = .ok a) :
    tree.quota.min ≤ a.questions.length ∧ a.questions.length ≤ tree.quota.max ∧
      ∃ blocks, a.questions = List.flatten blocks ∧
        List.Forall₂ Contribution tree.leaves blocks := by
  obtain ⟨hsteady, hsame⟩ := filledFor_steady tree r
  obtain ⟨hmin, hmax⟩ := filledFor_taken (attempt_ok h).1
  -- the total drawn is at least the minimum of the root, so every minimum is met
  have hmet : Everywhere MeetsMin (filledFor tree r).tree := by
    refine Steady.meetsMin (rangeFits_of_reset_eq hsame hr) hsteady ?_
    show _ ≤ (filledFor tree r).tree.quota.taken
    rw [(quota_eq_of_reset_eq hsame).2.1]
    exact hmin
  rw [attempt_length h]
  refine ⟨hmin, hmax, attempt_blocks contribution_reset h ?_⟩
  intro l hl block hblock
  refine ⟨?_, ?_, Sample.atDistinctPositions_of_subperm hblock.subperm⟩
  · rw [hblock.length_eq]
    exact hmet.of_mem_leaves l hl
  · rw [hblock.length_eq]
    exact (hsteady.of_mem_leaves l hl).withinMax

end Search

end ExamPaper
