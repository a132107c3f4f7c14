import ExamPaper.Proofs.Quota.Totals
import ExamPaper.Proofs.Tag.Meaning

/-!
# A larger bank gives a wider tree

The bank of a specification decides which questions a leaf holds, how far a range reaches, and
whether anything is built at all: a tag query has to find a question, and a range must not become
empty. More questions never spoil what is built. They lengthen the banks of leaves and raise
maxima, and no check is passed because a maximum is low:

> What is built over a bank is built over every larger one, with the same nodes and minima, maxima
> that are no lower, and banks that are no smaller (`build_of_sublist`).

The exception are sums that do not fit a word. Higher maxima add up to more, so over the larger bank
the sums are assumed to fit (`SumsFitOver`); those over the smaller one are no higher.
-/

namespace ExamPaper

namespace QuotaTree

variable {bank bank' : List Question}

/-- No sum of maxima that is made while a specification is built over a bank is too high for a
word. -/
inductive SumsFitOver (bank : List Question) : QuotaSpec → Prop where
  | count {n : Int} : SumsFitOver bank (.count n)
  | range {text : String} : SumsFitOver bank (.range text)
  | tag {text : String} : SumsFitOver bank (.tag text)
  | sequence {items : List QuotaSpec} (inside : ∀ item ∈ items, SumsFitOver bank item)
      (fit : ∀ children, places bank items = .ok children →
        (children.map (·.quota.max)).sum < wordLimit) :
      SumsFitOver bank (.sequence items)
  | pair {key value : QuotaSpec} (key_inside : SumsFitOver bank key)
      (value_inside : SumsFitOver bank value) : SumsFitOver bank (.pair key value)
  | mapping {pairs : List (QuotaSpec × QuotaSpec)}
      (keys_inside : ∀ entry ∈ pairs, SumsFitOver bank entry.1)
      (values_inside : ∀ entry ∈ pairs, SumsFitOver bank entry.2)
      (fit : ∀ children, entries bank pairs = .ok children →
        (children.map (·.quota.max)).sum < wordLimit) :
      SumsFitOver bank (.mapping pairs)

/-- A quota that differs from another in a higher maximum only. -/
structure Widens (q q' : Quota) : Prop where
  label_eq : q'.label = q.label
  min_eq : q'.min = q.min
  max_le : q.max ≤ q'.max
  taken_eq : q'.taken = q.taken

theorem Widens.refl (q : Quota) : Widens q q := ⟨rfl, rfl, Nat.le_refl q.max, rfl⟩

/-- A tree of the same shape with wider quotas and larger banks. -/
inductive Extends : QuotaTree → QuotaTree → Prop where
  | leaf {q q' : Quota} {found found' : List Question} (quota : Widens q q')
      (bank : found.Sublist found') : Extends (leaf q found) (leaf q' found')
  | branch {q q' : Quota} {children children' : List QuotaTree} (quota : Widens q q')
      (inside : List.Forall₂ Extends children children') :
      Extends (branch q children) (branch q' children')

/-- The root of a tree that extends another one has the wider range. -/
theorem Extends.quota_widens {t t' : QuotaTree} (h : Extends t t') : Widens t.quota t'.quota := by
  cases h with
  | leaf quota bank => exact quota
  | branch quota inside => exact quota

/-! ## Ranges -/

/-- With a higher upper end the narrowed range keeps its lower end, and is not empty if it was not
before. -/
theorem narrow_widen {label : String} {m a a' min max : Nat} {sub : CountRange} (hle : a ≤ a')
    (h : narrow label ⟨m, .finite a⟩ sub = .ok (min, max)) :
    ∃ max', max ≤ max' ∧ narrow label ⟨m, .finite a'⟩ sub = .ok (min, max') := by
  obtain ⟨hi, hhi, hnarrow⟩ := narrow_finite label m a sub
  obtain ⟨hi', hhi', hnarrow'⟩ := narrow_finite label m a' sub
  rw [hnarrow] at h
  by_cases hlt : hi < Nat.max m sub.min
  · rw [if_pos hlt] at h
    exact absurd h (by simp)
  · rw [if_neg hlt, Except.ok.injEq, Prod.mk.injEq] at h
    obtain ⟨rfl, rfl⟩ := h
    obtain ⟨ha, hsub⟩ := (hhi hi).mp (Nat.le_refl hi)
    have hhigher : hi ≤ hi' := (hhi' hi).mpr ⟨Nat.le_trans ha hle, hsub⟩
    exact ⟨hi', hhigher, by rw [hnarrow', if_neg (by omega)]⟩

/-! ## Tag queries -/

/-- What is selected from a larger bank holds what is selected from the smaller one. -/
theorem select_of_sublist {q : TagQuery} {found : List Question} (hbank : bank.Sublist bank')
    (h : q.select Question.tags bank = .ok found) (hne : found ≠ []) :
    ∃ found', q.select Question.tags bank' = .ok found' ∧ found.Sublist found' := by
  rw [TagQuery.select_eq] at h ⊢
  by_cases hempty : bank = []
  · -- nothing is selected from an empty bank
    rw [if_pos hempty] at h
    exact absurd (Except.ok.inj h).symm hne
  · have hempty' : bank' ≠ [] := by
      rintro rfl
      exact hempty (List.sublist_nil.mp hbank)
    rw [if_neg hempty] at h
    rw [if_neg hempty']
    cases hmeaning : q.meaning with
    | error e =>
      rw [hmeaning] at h
      exact absurd h (by simp [Except.map])
    | ok c =>
      rw [hmeaning] at h
      obtain rfl := Except.ok.inj h
      exact ⟨_, rfl, hbank.filter _⟩

/-- A query that finds something is resolved to what it finds. -/
theorem tagPart_of_select {text : String} {q : TagQuery} {found : List Question}
    (hq : TagQuery.parse text = .ok q) (h : q.select Question.tags bank = .ok found)
    (hne : found ≠ []) : tagPart bank text = .ok (.tag text found) := by
  unfold tagPart
  rw [hq]
  dsimp only
  rw [h]
  cases found with
  | nil => exact absurd rfl hne
  | cons first found => rfl

/-! ## Parts -/

/-- A part of the same kind: the same range, more questions of the same tag query, or a wider
tree. -/
inductive PartExtends : Part → Part → Prop where
  | range {label : String} {r : CountRange} : PartExtends (.range label r) (.range label r)
  | tag {label : String} {found found' : List Question} (bank : found.Sublist found') :
      PartExtends (.tag label found) (.tag label found')
  | node {t t' : QuotaTree} (tree : Extends t t') : PartExtends (.node t) (.node t')

/-- What stands alone over the larger bank extends what stands alone over the smaller one. -/
theorem place_extends {p p' : Part} {t : QuotaTree} (hp : PartExtends p p')
    (h : place p = .ok t) : ∃ t', place p' = .ok t' ∧ Extends t t' := by
  cases hp with
  | range =>
    rcases place_ok h with ⟨label, min, max, hr, rfl⟩ | ⟨label, found, hr, -⟩ | hr
    · exact ⟨_, h, .branch (.refl _) .nil⟩
    · exact absurd hr (by simp)
    · exact absurd hr (by simp)
  | tag bank =>
    obtain rfl := Except.ok.inj h
    exact ⟨_, rfl, .leaf (.refl _) bank⟩
  | node tree =>
    obtain rfl := Except.ok.inj h
    exact ⟨_, rfl, tree⟩

/-- A leaf takes the range that is left of its own. -/
theorem limited_of_narrow {label : String} {found : List Question} {r : CountRange}
    {min max : Nat} (h : narrow label ⟨0, .finite found.length⟩ r = .ok (min, max)) :
    limited label found r = .ok (leaf { label, min, max } found) := by
  unfold limited
  rw [h]

/-- More questions of a tag leave room for what there was room for. -/
theorem limited_extends {label : String} {found found' : List Question} {r : CountRange}
    {t : QuotaTree} (hfound : found.Sublist found') (h : limited label found r = .ok t) :
    ∃ t', limited label found' r = .ok t' ∧ Extends t t' := by
  obtain ⟨min, max, hn, rfl⟩ := limited_ok h
  obtain ⟨max', hmax, hn'⟩ := narrow_widen hfound.length_le hn
  exact ⟨_, limited_of_narrow hn', .leaf ⟨rfl, rfl, hmax, rfl⟩ hfound⟩

/-- A range before a list or a mapping narrows the range of its branch. -/
theorem combine_branch {other : String} {r : CountRange} {q : Quota} {children : List QuotaTree}
    {min max : Nat} (hne : children ≠ [])
    (h : narrow q.label r ⟨q.min, .finite q.max⟩ = .ok (min, max)) :
    combine (.range other r) (.node (branch q children)) =
      .ok (branch { q with min, max } children) := by
  cases children with
  | nil => exact absurd rfl hne
  | cons child children =>
    unfold combine
    dsimp only
    rw [h]

/-- An entry over the larger bank extends the entry over the smaller one. -/
theorem combine_extends {k k' v v' : Part} {t : QuotaTree} (hk : PartExtends k k')
    (hv : PartExtends v v') (h : combine k v = .ok t) :
    ∃ t', combine k' v' = .ok t' ∧ Extends t t' := by
  rcases combine_ok h with ⟨label, found, other, r, hparts, -⟩ |
    ⟨other, r, q, children, rfl, rfl, hne, min, max, hn, rfl⟩
  · -- a tag query and a range, in either order
    rcases hparts with ⟨rfl, rfl⟩ | ⟨rfl, rfl⟩
    · cases hk with
      | tag bank =>
        cases hv with
        | range => exact limited_extends bank h
    · cases hk with
      | range =>
        cases hv with
        | tag bank => exact limited_extends bank h
  · -- a range before a branch, whose children are as many as before
    cases hk with
    | range =>
      cases hv with
      | node tree =>
        cases tree with
        | @branch _ q' _ children' quota inside =>
          have hne' : children' ≠ [] := by
            rintro rfl
            exact hne (List.forall₂_nil_right_iff.mp inside)
          rw [narrow_comm] at hn
          obtain ⟨max', hmax, hn'⟩ := narrow_widen quota.max_le hn
          rw [narrow_comm, ← quota.min_eq, ← quota.label_eq] at hn'
          have hquota : Widens { q with min, max } { q' with min, max := max' } :=
            ⟨quota.label_eq, rfl, hmax, quota.taken_eq⟩
          exact ⟨_, combine_branch hne' hn', .branch hquota inside⟩

/-! ## Sums -/

/-- The minimums of children that are extended stay. -/
theorem map_min_eq {children children' : List QuotaTree}
    (h : List.Forall₂ Extends children children') :
    children'.map (·.quota.min) = children.map (·.quota.min) := by
  induction h with
  | nil => rfl
  | cons hchild _ ih => rw [List.map_cons, List.map_cons, hchild.quota_widens.min_eq, ih]

/-- The maximums of children that are extended do not become less, taken together. -/
theorem sum_max_le {children children' : List QuotaTree}
    (h : List.Forall₂ Extends children children') :
    (children.map (·.quota.max)).sum ≤ (children'.map (·.quota.max)).sum := by
  apply List.Forall₂.sum_le_sum
  rw [List.forall₂_map_left_iff, List.forall₂_map_right_iff]
  exact h.imp fun _ _ hchild => hchild.quota_widens.max_le

/-- A branch over children that are extended keeps its label. -/
theorem summedLabel_eq {kind : String} {children children' : List QuotaTree}
    (h : List.Forall₂ Extends children children') :
    summedLabel kind children' = summedLabel kind children := by
  cases h with
  | nil => rfl
  | cons hchild _ =>
    unfold summedLabel
    dsimp only
    rw [hchild.quota_widens.label_eq]

/-- Children that are extended make a branch that is. -/
theorem together_extends {kind : String} {children children' : List QuotaTree}
    (h : List.Forall₂ Extends children children') :
    Extends (together kind children) (together kind children') :=
  .branch ⟨summedLabel_eq h, congrArg List.sum (map_min_eq h), sum_max_le h, rfl⟩ h

/-- Trees that can be put together still can be when they are wider, if their maxima fit. -/
theorem Fit.of_extends {children children' : List QuotaTree} (hfit : Fit children)
    (h : List.Forall₂ Extends children children')
    (hmax : (children'.map (·.quota.max)).sum < wordLimit) : Fit children' :=
  ⟨(map_min_eq h).symm ▸ hfit.min, hmax⟩

/-! ## The induction over the specification -/

/-- What becomes of a part over the larger bank, if the sums fit there. -/
def ExtendedOver (bank' : List Question) (spec : QuotaSpec) (p : Part) : Prop :=
  SumsFitOver bank' spec → ∃ p', part bank' spec = .ok p' ∧ PartExtends p p'

/-- A list that is built over a bank is built over a larger one, as long as the sums fit. -/
theorem places_extends {items : List QuotaSpec} {children : List QuotaTree}
    (h : List.Forall₂ (fun item child => ∃ p, ExtendedOver bank' item p ∧ place p = .ok child)
      items children) (hfit : ∀ item ∈ items, SumsFitOver bank' item) :
    ∃ children', places bank' items = .ok children' ∧ List.Forall₂ Extends children children' := by
  induction h with
  | nil => exact ⟨[], by rw [places], .nil⟩
  | cons hitem _ ih =>
    obtain ⟨hfirst, hrest⟩ := List.forall_mem_cons.mp hfit
    obtain ⟨p, hp, hplace⟩ := hitem
    obtain ⟨p', hpart, hextends⟩ := hp hfirst
    obtain ⟨child', hplace', hchild⟩ := place_extends hextends hplace
    obtain ⟨children', hplaces, hchildren⟩ := ih hrest
    refine ⟨child' :: children', ?_, .cons hchild hchildren⟩
    rw [places, hpart]
    dsimp only
    rw [hplace']
    dsimp only
    rw [hplaces]

/-- So is a mapping. -/
theorem entries_extends {pairs : List (QuotaSpec × QuotaSpec)} {children : List QuotaTree}
    (h : List.Forall₂ (fun (entry : QuotaSpec × QuotaSpec) child => ∃ k v,
      ExtendedOver bank' entry.1 k ∧ ExtendedOver bank' entry.2 v ∧ combine k v = .ok child)
      pairs children) (hkeys : ∀ entry ∈ pairs, SumsFitOver bank' entry.1)
    (hvalues : ∀ entry ∈ pairs, SumsFitOver bank' entry.2) :
    ∃ children', entries bank' pairs = .ok children' ∧
      List.Forall₂ Extends children children' := by
  induction h with
  | nil => exact ⟨[], by rw [entries], .nil⟩
  | @cons entry _ _ _ hentry _ ih =>
    obtain ⟨key, value⟩ := entry
    obtain ⟨hkey, hkeys⟩ := List.forall_mem_cons.mp hkeys
    obtain ⟨hvalue, hvalues⟩ := List.forall_mem_cons.mp hvalues
    obtain ⟨k, v, hk, hv, hcombine⟩ := hentry
    obtain ⟨k', hkpart, hkextends⟩ := hk hkey
    obtain ⟨v', hvpart, hvextends⟩ := hv hvalue
    obtain ⟨child', hcombine', hchild⟩ := combine_extends hkextends hvextends hcombine
    obtain ⟨children', hentries, hchildren⟩ := ih hkeys hvalues
    refine ⟨child' :: children', ?_, .cons hchild hchildren⟩
    rw [entries, hkpart]
    dsimp only
    rw [hvpart]
    dsimp only
    rw [hcombine']
    dsimp only
    rw [hentries]

/-- Every part is extended over a larger bank as long as the sums fit there. -/
theorem extendedOver_cases (hbank : bank.Sublist bank') :
    PartCases bank (ExtendedOver bank') where
  count n _ := ⟨_, by rw [part], .range⟩
  range text r h _ := ⟨.range text r, by rw [part, h], .range⟩
  tag text q found hq hs hne _ := by
    obtain ⟨found', hs', hfound⟩ := select_of_sublist hbank hs hne
    have hne' : found' ≠ [] := by
      rintro rfl
      exact hne (List.sublist_nil.mp hfound)
    exact ⟨.tag text found', by rw [part, tagPart_of_select hq hs' hne'], .tag hfound⟩
  sequence items children h hfit hover := by
    cases hover with
    | sequence inside fit =>
      obtain ⟨children', hplaces, hchildren⟩ := places_extends h inside
      have hfit' : Fit children' := hfit.of_extends hchildren (fit _ hplaces)
      refine ⟨_, ?_, .node (together_extends hchildren)⟩
      rw [part, hplaces]
      dsimp only
      rw [summed_of_fit hfit']
      rfl
  pair key value k v t hk hv ht hfit := by
    cases hfit with
    | pair key_inside value_inside =>
      obtain ⟨k', hkpart, hkextends⟩ := hk key_inside
      obtain ⟨v', hvpart, hvextends⟩ := hv value_inside
      obtain ⟨t', hcombine, htree⟩ := combine_extends hkextends hvextends ht
      refine ⟨.node t', ?_, .node htree⟩
      rw [part, hkpart]
      dsimp only
      rw [hvpart]
      dsimp only
      rw [hcombine]
      rfl
  mapping pairs children h hfit hover := by
    cases hover with
    | mapping keys_inside values_inside fit =>
      obtain ⟨children', hentries, hchildren⟩ := entries_extends h keys_inside values_inside
      have hfit' : Fit children' := hfit.of_extends hchildren (fit _ hentries)
      refine ⟨_, ?_, .node (together_extends hchildren)⟩
      rw [part, hentries]
      dsimp only
      rw [summed_of_fit hfit']
      rfl

/-- **A larger bank gives a wider tree.** What is built over a bank is built over every bank that it
is a part of, if the sums fit a word there: a tree of the same shape, with the label, the minimum
and the number taken of every node as before, maxima that are no lower, and leaves whose banks have
all the questions that they had, in the same order. -/
theorem build_of_sublist {spec : QuotaSpec} {bank bank' : List Question} {t : QuotaTree}
    (hbank : bank.Sublist bank') (hfit : SumsFitOver bank' spec)
    (h : build spec bank = .ok t) : ∃ t', build spec bank' = .ok t' ∧ Extends t t' := by
  obtain ⟨p, hp, hplace⟩ := (extendedOver_cases hbank).of_build h
  obtain ⟨p', hpart, hextends⟩ := hp hfit
  obtain ⟨t', hplace', htree⟩ := place_extends hextends hplace
  refine ⟨t', ?_, htree⟩
  rw [build_eq]
  exact bind_eq_ok_iff.mpr ⟨p', hpart, hplace'⟩

/-- The bank of the sample with one more question `a` and one more question `c`. -/
def largerBank : List Question :=
  tagged "a" ["a0", "a1", "a2", "a3"] ++ tagged "b" ["b0", "b1"] ++ tagged "c" ["c0", "c1"]

/-- The list in the sample specification, over the larger bank. -/
def largerItems : List QuotaTree := [
  leaf { label := "a", min := 0, max := 4 } (tagged "a" ["a0", "a1", "a2", "a3"]),
  leaf { label := "b", min := 0, max := 2 } (tagged "b" ["b0", "b1"])]

/-- The trees of the entries of the sample specification, over the larger bank. -/
def largerEntries : List QuotaTree := [
  branch { label := "ARRAY[a,...]", min := 2, max := 4 } largerItems,
  leaf { label := "c", min := 1, max := 1 } (tagged "c" ["c0", "c1"])]

/-- The tree of the sample specification over the larger bank: the range before the list still
bounds it, and one question `c` is asked for as before. -/
def largerTree : QuotaTree :=
  branch { label := "DICT[ARRAY[a,...],...]", min := 3, max := 5 } largerEntries

theorem build_of_sublist_sampleTree :
    sampleBank.Sublist largerBank ∧ SumsFitOver largerBank sampleSpec ∧
    build sampleSpec sampleBank = .ok sampleTree ∧
    build sampleSpec largerBank = .ok largerTree ∧ Extends sampleTree largerTree := by
  have hbank : sampleBank.Sublist largerBank :=
    (((by decide : ["a0", "a1", "a2"].Sublist ["a0", "a1", "a2", "a3"]).map _).append
      (List.Sublist.refl _)).append ((by decide : ["c0"].Sublist ["c0", "c1"]).map _)
  have hitems : places largerBank [.pair (.tag "a") (.range "*"), .pair (.tag "b") (.range "*")] =
      .ok largerItems := rfl
  have hentries : entries largerBank [
      (.range "2-4", .sequence [.pair (.tag "a") (.range "*"), .pair (.tag "b") (.range "*")]),
      (.tag "c", .count 1)] = .ok largerEntries := rfl
  have hfit : SumsFitOver largerBank sampleSpec := by
    refine .mapping ?_ ?_ ?_
    · simp [SumsFitOver.range, SumsFitOver.tag]
    · refine List.forall_mem_cons.mpr ⟨.sequence ?_ ?_, by simp [SumsFitOver.count]⟩
      · simp [SumsFitOver.pair, SumsFitOver.range, SumsFitOver.tag]
      · intro children h
        rw [hitems] at h
        obtain rfl := Except.ok.inj h
        decide
    · intro children h
      rw [hentries] at h
      obtain rfl := Except.ok.inj h
      decide
  have hbuild : build sampleSpec largerBank = .ok largerTree := rfl
  obtain ⟨t', ht', hextends⟩ := build_of_sublist hbank hfit build_sampleSpec
  rw [hbuild] at ht'
  obtain rfl := Except.ok.inj ht'
  exact ⟨hbank, hfit, build_sampleSpec, hbuild, hextends⟩

end QuotaTree

end ExamPaper
