import ExamPaper.Proofs.Selection.Attempt

/-!
# What a search ends with

A search only ever compares whole attempts, so it invents no selection of its own:

> The selection that a search ends with, within the tolerance or not, is one that an attempt made
> (`search_attempted`). On a correct tree a search fails only if an attempt does (`search_isOk`).

Both are an induction on the tries that are left. For a correct tree built from a specification no
attempt fails, whatever is drawn and whatever had been taken in it before, so no search does.
-/

namespace ExamPaper

/-- The selection that a search ends with, within the tolerance or not. -/
def SearchOutcome.attempt : SearchOutcome → Attempt
  | found a => a
  | exhausted stats => stats.best

namespace Search

open QuotaTree

variable {ρ : Type} [Draws ρ]

/-- An attempt at the tree makes this selection, for some state of the random source. -/
def Attempted (ρ : Type) [Draws ρ] (tree : QuotaTree) (a : Attempt) : Prop :=
  ∃ r : ρ, (attempt tree r).1 = .ok a

/-! ## The best attempt so far -/

/-- After one more attempt the best one is that one or the best one before. -/
theorem next_best (p : SearchParams) (stats : SearchStats) (a : Attempt) :
    (next p stats a).best = a ∨ (next p stats a).best = stats.best := by
  unfold next
  by_cases hcloser : deviation p a < deviation p stats.best
  · exact Or.inl (if_pos hcloser)
  · exact Or.inr (if_neg hcloser)

/-- The best of further attempts is an attempt. -/
theorem continueFrom_attempted {tree : QuotaTree} {p : SearchParams} :
    ∀ {tries : Nat} {stats stats' : SearchStats} {r : ρ}, Attempted ρ tree stats.best →
      (continueFrom p tree tries stats r).1 = .ok stats' → Attempted ρ tree stats'.best := by
  intro tries
  induction tries with
  | zero =>
    intro stats stats' r hbest h
    obtain rfl := Except.ok.inj h
    exact hbest
  | succ tries ih =>
    intro stats stats' r hbest h
    unfold continueFrom at h
    by_cases hgo : p.tolerance <= deviation p stats.best
    · rw [if_pos hgo] at h
      cases ha : attempt tree r with
      | mk result r' =>
        rw [ha] at h
        cases result with
        | error e => exact absurd h (by simp)
        | ok a =>
          refine ih ?_ h
          rcases next_best p stats a with hnew | hold
          · rw [hnew]
            exact ⟨r, congrArg Prod.fst ha⟩
          · rw [hold]
            exact hbest
    · -- the best one is close enough
      rw [if_neg hgo] at h
      obtain rfl := Except.ok.inj h
      exact hbest

/-- Further attempts go well if every attempt does. -/
theorem continueFrom_isOk {tree : QuotaTree} {p : SearchParams}
    (hok : ∀ r : ρ, ∃ a, (attempt tree r).1 = .ok a) :
    ∀ (tries : Nat) (stats : SearchStats) (r : ρ),
      ∃ stats', (continueFrom p tree tries stats r).1 = .ok stats' := by
  intro tries
  induction tries with
  | zero => intro stats r; exact ⟨stats, rfl⟩
  | succ tries ih =>
    intro stats r
    unfold continueFrom
    by_cases hgo : p.tolerance <= deviation p stats.best
    · rw [if_pos hgo]
      obtain ⟨a, ha⟩ := hok r
      obtain ⟨stats', hstats'⟩ := ih (next p stats a) (attempt tree r).2
      refine ⟨stats', ?_⟩
      rw [show attempt tree r = (.ok a, (attempt tree r).2) from Prod.ext ha rfl]
      exact hstats'
    · rw [if_neg hgo]
      exact ⟨stats, rfl⟩

/-! ## The search -/

/-- A search ends with the best attempt, whether that is found or not. -/
theorem outcome_attempt (p : SearchParams) (stats : SearchStats) :
    (outcome p stats).attempt = stats.best := by
  unfold outcome
  by_cases hclose : deviation p stats.best < p.tolerance
  · rw [if_pos hclose]; rfl
  · rw [if_neg hclose]; rfl

/-- What a search ends with comes from an attempt. -/
theorem search_attempted {tree : QuotaTree} {p : SearchParams} {r : ρ} {o : SearchOutcome}
    (h : (search tree p r).1 = .ok o) : Attempted ρ tree o.attempt := by
  unfold search at h
  cases hcorrect : tree.firstIncorrect with
  | some q => rw [hcorrect] at h; exact absurd h (by simp)
  | none =>
    rw [hcorrect] at h
    cases ha : attempt tree r with
    | mk result r' =>
      simp only [ha] at h
      cases result with
      | error e => exact absurd h (by simp)
      | ok a =>
        cases hrest : continueFrom p tree (p.tries - 1) (first a) r' with
        | mk result r'' =>
          simp only [hrest] at h
          cases result with
          | error e => exact absurd h (by simp)
          | ok stats =>
            obtain rfl := Except.ok.inj h
            rw [outcome_attempt]
            have hfirst : Attempted ρ tree (first a).best := ⟨r, congrArg Prod.fst ha⟩
            exact continueFrom_attempted hfirst (congrArg Prod.fst hrest)

/-- A search goes well if the tree is correct and every attempt does. -/
theorem search_isOk {tree : QuotaTree} (hcorrect : tree.isCorrect = true)
    (hok : ∀ r : ρ, ∃ a, (attempt tree r).1 = .ok a) (p : SearchParams) (r : ρ) :
    ∃ o, (search tree p r).1 = .ok o := by
  unfold search
  rw [firstIncorrect_eq_none_iff.mpr hcorrect]
  obtain ⟨a, ha⟩ := hok r
  obtain ⟨stats, hstats⟩ :=
    continueFrom_isOk (p := p) hok (p.tries - 1) (first a) (attempt tree r).2
  refine ⟨outcome p stats, ?_⟩
  rw [show attempt tree r = (.ok a, (attempt tree r).2) from Prod.ext ha rfl]
  dsimp only
  rw [show continueFrom p tree (p.tries - 1) (first a) (attempt tree r).2 =
    (.ok stats, (continueFrom p tree (p.tries - 1) (first a) (attempt tree r).2).2) from
    Prod.ext hstats rfl]

/-- **Assembly from a correct tree.** Take a correct tree that was built from a specification, with
any numbers taken in it. Every attempt makes a selection, of a size in the range of the root, which
is one block for each leaf in order, of a size in the range of the leaf and from pairwise different
positions of its bank. So no search fails. -/
theorem attempt_of_build {spec : QuotaSpec} {bank : List Question} {built tree : QuotaTree}
    (hbuild : build spec bank = .ok built) (hcorrect : built.isCorrect = true)
    (hsame : tree.reset = built.reset) :
    (∀ r : ρ, ∃ a blocks, (attempt tree r).1 = .ok a ∧
      tree.quota.min ≤ a.questions.length ∧ a.questions.length ≤ tree.quota.max ∧
      a.questions = List.flatten blocks ∧ List.Forall₂ Contribution tree.leaves blocks) ∧
    ∀ (p : SearchParams) (r : ρ), ∃ o, (search tree p r).1 = .ok o := by
  obtain ⟨hr, hs⟩ := (built_of_build hbuild).fits hcorrect
  replace hr := rangeFits_of_reset_eq hsame hr
  replace hs := stocked_of_reset_eq hsame hs
  have hok : ∀ r : ρ, ∃ a, (attempt tree r).1 = .ok a := attempt_isOk hr hs
  constructor
  · intro r
    obtain ⟨a, ha⟩ := hok r
    obtain ⟨hmin, hmax, blocks, hquestions, hblocks⟩ := attempt_within hr ha
    exact ⟨a, blocks, ha, hmin, hmax, hquestions, hblocks⟩
  · refine search_isOk ?_ hok
    rw [← isCorrect_reset, hsame, isCorrect_reset]
    exact hcorrect

theorem attempt_of_build_sampleFilled :
    build sampleSpec sampleBank = .ok sampleTree ∧ sampleTree.isCorrect = true ∧
    sampleFilled.reset = sampleTree.reset ∧
    (∃ a blocks, (attempt sampleFilled sampleSource).1 = .ok a ∧
      3 ≤ a.questions.length ∧ a.questions.length ≤ 5 ∧
      a.questions = List.flatten blocks ∧
      List.Forall₂ Contribution sampleFilled.leaves blocks) ∧
    ∃ o, (search sampleFilled ⟨4.0, 0.5, 10⟩ sampleSource).1 = .ok o := by
  have hcorrect : sampleTree.isCorrect = true := rfl
  have hsame : sampleFilled.reset = sampleTree.reset := rfl
  obtain ⟨hattempt, hsearch⟩ :=
    attempt_of_build (ρ := Stepping) build_sampleSpec hcorrect hsame
  exact ⟨build_sampleSpec, hcorrect, hsame, hattempt sampleSource, hsearch _ _⟩

end Search

end ExamPaper
