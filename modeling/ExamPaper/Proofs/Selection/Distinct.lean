import ExamPaper.Proofs.Selection.Search

/-!
# How often a question is selected

The leaves of a tree are drawn one by one. Each is drawn without putting questions back, but none
knows what the others draw, so a question in the banks of several leaves may be selected from each.

> A question is selected at most as often as there are leaves that may give it (`Supplies`). Where
> no two such leaves share a question, the questions selected are pairwise different.

For a tree built from a specification over a bank without repetition this holds of every attempt,
and so of what a search ends with. Leaves that do share questions are not kept from giving the same
one (`drawLeaves_constant`).
-/

namespace ExamPaper

namespace Search

open QuotaTree

/-- The leaf may give the question: it may take questions, and the question is in its bank. -/
def Supplies (q : Question) (l : QuotaLeaf) : Prop := 0 < l.quota.max ∧ q ∈ l.bank

instance (q : Question) : DecidablePred (Supplies q) := fun l =>
  inferInstanceAs (Decidable (0 < l.quota.max ∧ q ∈ l.bank))

/-- No question may be given by both leaves. -/
def Apart (l m : QuotaLeaf) : Prop := ∀ q, ¬ (Supplies q l ∧ Supplies q m)

/-- No question is selected more often than there are leaves that may give it, and none twice if the
leaves share no question. -/
structure Spread (tree : QuotaTree) (qs : List Question) : Prop where
  count_le : ∀ q, qs.count q ≤ tree.leaves.countP fun l => Supplies q l
  nodup : tree.leaves.Pairwise Apart → qs.Nodup

/-! ## Counting over the leaves -/

/-- If no two leaves share questions, one leaf at most can supply a question. -/
theorem countP_supplies_le_one {leaves : List QuotaLeaf} (h : leaves.Pairwise Apart)
    (q : Question) : (leaves.countP fun l => Supplies q l) ≤ 1 := by
  induction leaves with
  | nil => exact Nat.zero_le 1
  | cons l leaves ih =>
    obtain ⟨hl, hleaves⟩ := List.pairwise_cons.mp h
    by_cases hq : Supplies q l
    · have hnone : (leaves.countP fun l => Supplies q l) = 0 := by
        rw [List.countP_eq_zero]
        intro m hm hqm
        exact hl m hm q ⟨hq, of_decide_eq_true hqm⟩
      rw [List.countP_cons_of_pos (by simpa using hq), hnone]
    · rw [List.countP_cons_of_neg (by simpa using hq)]
      exact ih hleaves

/-- What a leaf may give: no more questions than it may take, which are a part of its bank. -/
structure Supplied (l : QuotaLeaf) (block : List Question) : Prop where
  le_max : block.length ≤ l.quota.max
  subperm : block.Subperm l.bank

theorem supplied_reset (l : QuotaLeaf) (block : List Question) :
    Supplied l.reset block ↔ Supplied l block :=
  ⟨fun h => ⟨h.le_max, h.subperm⟩, fun h => ⟨h.le_max, h.subperm⟩⟩

/-- A leaf that a question was drawn from can supply it. -/
theorem Supplied.supplies {l : QuotaLeaf} {block : List Question} (h : Supplied l block)
    {q : Question} (hq : q ∈ block) : Supplies q l := by
  have hpos : 0 < block.length := List.length_pos_of_mem hq
  exact ⟨Nat.lt_of_lt_of_le hpos h.le_max, h.subperm.subset hq⟩

/-- A question is drawn no more often than there are leaves that can supply it. -/
theorem count_flatten_le {leaves : List QuotaLeaf} {blocks : List (List Question)}
    (h : List.Forall₂ Supplied leaves blocks) (hbanks : ∀ l ∈ leaves, l.bank.Nodup)
    (q : Question) : blocks.flatten.count q ≤ leaves.countP fun l => Supplies q l := by
  induction h with
  | nil => exact Nat.le_refl 0
  | @cons l block leaves blocks hblock _ ih =>
    obtain ⟨hbank, hbanks⟩ := List.forall_mem_cons.mp hbanks
    have hrest := ih hbanks
    rw [List.flatten_cons, List.count_append]
    -- the first leaf gives the question at most once, and only if it may
    by_cases hq : Supplies q l
    · have hone : block.count q ≤ 1 :=
        Nat.le_trans (hblock.subperm.count_le q) (List.nodup_iff_count_le_one.mp hbank q)
      rw [List.countP_cons_of_pos (by simpa using hq)]
      omega
    · have hzero : block.count q = 0 :=
        List.count_eq_zero.mpr fun hmem => hq (hblock.supplies hmem)
      rw [List.countP_cons_of_neg (by simpa using hq), hzero]
      omega

/-! ## Attempts and searches -/

variable {ρ : Type} [Draws ρ]

/-- The questions of an attempt are spread over the leaves that can supply them. -/
theorem Attempted.spread {tree : QuotaTree} {a : Attempt}
    (hbanks : ∀ l ∈ tree.leaves, l.bank.Nodup) (h : Attempted ρ tree a) :
    Spread tree a.questions := by
  obtain ⟨r, h⟩ := h
  have hsteady := (filledFor_steady tree r).1
  have hparts : ∃ blocks, a.questions = List.flatten blocks ∧
      List.Forall₂ Supplied tree.leaves blocks := by
    refine attempt_blocks supplied_reset h ?_
    intro l hl block hblock
    refine ⟨?_, hblock.subperm⟩
    rw [hblock.length_eq]
    exact (hsteady.of_mem_leaves l hl).withinMax
  obtain ⟨blocks, hquestions, hblocks⟩ := hparts
  have hcount : ∀ q, a.questions.count q ≤ tree.leaves.countP fun l => Supplies q l := by
    intro q
    rw [hquestions]
    exact count_flatten_le hblocks hbanks q
  refine ⟨hcount, ?_⟩
  intro hapart
  rw [List.nodup_iff_count_le_one]
  intro q
  exact Nat.le_trans (hcount q) (countP_supplies_le_one hapart q)

/-- The selections over a tree built from a bank without repetition: a question is selected at most
as often as there are leaves that may give it, and the questions are pairwise different if no two
leaves may give the same one. -/
theorem selection_spread {spec : QuotaSpec} {bank : List Question} {tree : QuotaTree}
    (hbank : bank.Nodup) (hbuild : build spec bank = .ok tree) :
    (∀ (r : ρ) (a : Attempt), (attempt tree r).1 = .ok a → Spread tree a.questions) ∧
    ∀ (p : SearchParams) (r : ρ) (o : SearchOutcome),
      (search tree p r).1 = .ok o → Spread tree o.attempt.questions := by
  have hbanks : ∀ l ∈ tree.leaves, l.bank.Nodup := by
    intro l hl
    exact ((built_of_build hbuild).fromBank l hl).nodup hbank
  constructor
  · intro r a ha
    exact Attempted.spread hbanks ⟨r, ha⟩
  · intro p r o ho
    exact (search_attempted ho).spread hbanks

theorem nodup_sampleBank : sampleBank.Nodup := by
  have htitles : (sampleBank.map Question.title).Nodup := by decide
  exact htitles.of_map

theorem apart_sampleTree : sampleTree.leaves.Pairwise Apart := by
  have htitles : sampleTree.leaves.Pairwise fun l m =>
      ∀ title ∈ l.bank.map Question.title, title ∉ m.bank.map Question.title := by decide
  refine htitles.imp ?_
  intro l m hlm q ⟨hl, hm⟩
  exact hlm q.title (List.mem_map_of_mem hl.2) (List.mem_map_of_mem hm.2)

theorem selection_spread_sampleTree :
    sampleBank.Nodup ∧ build sampleSpec sampleBank = .ok sampleTree ∧
    (∃ a, (attempt sampleTree sampleSource).1 = .ok a ∧ a.questions.Nodup) ∧
    ∃ o, (search sampleTree ⟨4.0, 0.5, 10⟩ sampleSource).1 = .ok o ∧
      o.attempt.questions.Nodup := by
  have hcorrect : sampleTree.isCorrect = true := rfl
  obtain ⟨hr, hs⟩ := (built_of_build build_sampleSpec).fits hcorrect
  have hok : ∀ r : Stepping, ∃ a, (attempt sampleTree r).1 = .ok a := attempt_isOk hr hs
  obtain ⟨hattempt, hsearch⟩ :=
    selection_spread (ρ := Stepping) nodup_sampleBank build_sampleSpec
  obtain ⟨a, ha⟩ := hok sampleSource
  obtain ⟨o, ho⟩ := search_isOk hcorrect hok ⟨4.0, 0.5, 10⟩ sampleSource
  exact ⟨nodup_sampleBank, build_sampleSpec,
    ⟨a, ha, (hattempt _ a ha).nodup apart_sampleTree⟩,
    ⟨o, ho, (hsearch _ _ o ho).nodup apart_sampleTree⟩⟩

/-! ## Leaves that share their questions -/

/-- A source whose words are all zero. A draw leaves it as it was, so that what is drawn once is
drawn again. -/
def constantSource : Stepping := { word := 0, step := 0 }

theorem withinFrom_constant (lo hi : Float) (k : Nat) :
    (WordSource.withinFrom lo hi k constantSource).2 = constantSource := by
  induction k with
  | zero => rfl
  | succ k ih =>
    unfold WordSource.withinFrom
    show Prod.snd (if _ then (_, constantSource) else
      WordSource.withinFrom lo hi k constantSource) = constantSource
    split
    · rfl
    · exact ih

/-- A constant source stays as it is when a wheel is turned. -/
theorem spin_constant (pool : List Question) :
    (Sample.spin pool constantSource).2 = constantSource := by
  unfold Sample.spin
  dsimp only
  split
  · rfl
  · show (WordSource.within _ _ constantSource).2 = constantSource
    unfold WordSource.within
    split
    · exact withinFrom_constant _ _ _
    · rfl

theorem drawFrom_constant : ∀ (n : Nat) (pool : List Question),
    (Sample.drawFrom n pool constantSource).rng = constantSource := by
  intro n
  induction n with
  | zero => intro pool; rfl
  | succ n ih =>
    intro pool
    unfold Sample.drawFrom
    rw [show Sample.spin pool constantSource = (_, constantSource) from
      Prod.ext rfl (spin_constant pool)]
    dsimp only
    split
    · rfl
    · exact ih _

/-- A constant source stays as it is in a draw. -/
theorem draw_constant (bank : List Question) (count : Nat) :
    (Sample.draw bank count constantSource).2 = constantSource := by
  unfold Sample.draw
  split
  · rfl
  · split
    · rfl
    · exact drawFrom_constant count bank

/-- Two equal leaves give the same questions, if the source does not change. -/
theorem drawLeaves_constant {l : QuotaLeaf} (h : l.quota.taken ≤ l.bank.length) :
    ∃ qs, qs.length = l.quota.taken ∧
      (drawLeaves [l, l] constantSource).1 = .ok (qs ++ qs) := by
  obtain ⟨qs, hqs⟩ := Sample.draw_isOk h constantSource
  have hdraw : Sample.draw l.bank l.quota.taken constantSource = (.ok qs, constantSource) :=
    Prod.ext hqs (draw_constant _ _)
  refine ⟨qs, (Sample.draw_ok hqs).1, ?_⟩
  simp only [drawLeaves, hdraw, List.append_nil]

def twinBank : List Question := tagged "a" ["a0", "a1"]

def twinSpec : QuotaSpec := .sequence [.tag "a", .tag "a"]

def twinTree : QuotaTree :=
  branch { label := "ARRAY[a,...]", min := 2, max := 2 } [
    leaf { label := "a", min := 1, max := 1 } twinBank,
    leaf { label := "a", min := 1, max := 1 } twinBank]

/-- One question `a` and one question `a` may be the same question, though there are two. -/
theorem repeated_twinTree :
    twinBank.Nodup ∧ build twinSpec twinBank = .ok twinTree ∧ twinTree.isCorrect = true ∧
    ∃ a, (attempt twinTree constantSource).1 = .ok a ∧ ¬ a.questions.Nodup := by
  have htitles : (twinBank.map Question.title).Nodup := by decide
  refine ⟨htitles.of_map, rfl, rfl, ?_⟩
  -- each leaf has taken one of two questions
  have hfilled : (filledFor twinTree constantSource).result = .ok () := rfl
  obtain ⟨qs, hlength, hdraws⟩ := drawLeaves_constant
    (l := ⟨{ label := "a", min := 1, max := 1, taken := 1 }, twinBank⟩) (by decide)
  refine ⟨attemptOf (qs ++ qs), ?_, ?_⟩
  · rw [attempt_eq, hfilled]
    exact congrArg (Except.map attemptOf) hdraws
  · show ¬ (qs ++ qs).Nodup
    intro hnodup
    have hself : qs.Disjoint qs := (List.nodup_append'.mp hnodup).2.2
    obtain ⟨q, hq⟩ := List.exists_mem_of_length_pos (Nat.lt_of_lt_of_eq Nat.one_pos hlength.symm)
    exact hself hq hq

end Search

end ExamPaper
