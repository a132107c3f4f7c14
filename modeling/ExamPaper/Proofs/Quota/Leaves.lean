import ExamPaper.Proofs.Quota.Stock
import ExamPaper.Proofs.Tag.Meaning

/-!
# The leaves of a tree that is built

A tag query becomes a leaf at three places: on its own, before a range, and after one. Everything
else that is built only arranges leaves that are there already, and gives branches their ranges. So
the leaves can be read off the specification without building anything.

> The leaves of a tree built, from left to right, are the tag queries of its specification as they
> are read: one leaf for each, with the text of the query for a label, and the questions that
> satisfy it for a bank (`leaves_of_build`).

`Part.sources` is what a part draws from, as labels and banks. It does not change when a part is
placed (`sources_place`), and those of a mapping entry are those of its key and then those of its
value (`sources_combine`).
-/

namespace ExamPaper

namespace QuotaSpec

mutual

/-- The tag queries of a specification as they are read: items and entries in order, and the key of
an entry before its value. -/
def tagTexts : QuotaSpec → List String
  | .count _ => []
  | .range _ => []
  | .tag text => [text]
  | .sequence items => tagTextsOfItems items
  | .pair key value => tagTexts key ++ tagTexts value
  | .mapping pairs => tagTextsOfPairs pairs

def tagTextsOfItems : List QuotaSpec → List String
  | [] => []
  | item :: items => tagTexts item ++ tagTextsOfItems items

def tagTextsOfPairs : List (QuotaSpec × QuotaSpec) → List String
  | [] => []
  | (key, value) :: pairs => (tagTexts key ++ tagTexts value) ++ tagTextsOfPairs pairs

end

theorem tagTextsOfItems_eq_flatMap (items : List QuotaSpec) :
    tagTextsOfItems items = items.flatMap tagTexts := by
  induction items with
  | nil => rfl
  | cons item items ih => rw [tagTextsOfItems, ih, List.flatMap_cons]

theorem tagTextsOfPairs_eq_flatMap (pairs : List (QuotaSpec × QuotaSpec)) :
    tagTextsOfPairs pairs = pairs.flatMap fun pair => tagTexts pair.1 ++ tagTexts pair.2 := by
  induction pairs with
  | nil => rfl
  | cons pair pairs ih => rw [tagTextsOfPairs, ih, List.flatMap_cons]

end QuotaSpec

/-- The questions of a bank whose tags satisfy the tag query that a text denotes, in order. -/
def satisfying (bank : List Question) (text : String) : List Question :=
  bank.filter fun q => TagQuery.textHolds text q.tags = .ok true

namespace TagQuery

/-- The tag query that a text denotes is the listing of a condition. -/
def TextMeans (text : String) (c : TagCondition) : Prop :=
  ∃ q, parse text = .ok q ∧ q.tokens = c.listing

/-- A query whose text means a condition answers as the condition does. -/
theorem TextMeans.textHolds {text : String} {c : TagCondition} (h : TextMeans text c)
    (tags : NameSet) : textHolds text tags = .ok (c.value tags.contains) := by
  obtain ⟨q, hq, hlisting⟩ := h
  unfold TagQuery.textHolds
  rw [hq]
  show q.holds tags = _
  rw [holds_eq, meaning_eq_ok_iff.mpr hlisting]
  rfl

/-- A query that selects something is a condition, and selects the questions that satisfy it. -/
theorem textMeans_of_select {text : String} {q : TagQuery} {bank found : List Question}
    (hq : parse text = .ok q) (hfound : q.select Question.tags bank = .ok found)
    (hne : found ≠ []) :
    (∃ c, TextMeans text c) ∧ found = satisfying bank text := by
  rw [select_eq] at hfound
  by_cases hbank : bank = []
  · -- from no questions nothing is selected
    rw [if_pos hbank] at hfound
    exact absurd (Except.ok.inj hfound).symm hne
  · rw [if_neg hbank] at hfound
    cases hmeaning : q.meaning with
    | error e => rw [hmeaning] at hfound; exact absurd hfound (by simp [Except.map])
    | ok c =>
      have hmeans : TextMeans text c := ⟨q, hq, meaning_eq_ok_iff.mp hmeaning⟩
      rw [hmeaning] at hfound
      refine ⟨⟨c, hmeans⟩, (Except.ok.inj hfound).symm.trans ?_⟩
      refine List.filter_congr fun x _ => ?_
      rw [hmeans.textHolds]
      simp

end TagQuery

namespace QuotaTree

/-! ## What parts and trees draw from -/

/-- The labels and the banks of the leaves, from left to right. -/
def sources (t : QuotaTree) : List (String × List Question) :=
  t.leaves.map fun l => (l.quota.label, l.bank)

/-- The labels and the banks of the leaves that a part has or is to become. -/
def Part.sources : Part → List (String × List Question)
  | .range _ _ => []
  | .tag label bank => [(label, bank)]
  | .node t => t.sources

/-- The leaves of a branch are those of its children in their order. -/
theorem sources_branch (q : Quota) (children : List QuotaTree) :
    (branch q children).sources = children.flatMap sources := by
  unfold sources
  rw [leaves_branch, List.map_flatMap]

/-- What stands alone has the leaves of its part. -/
theorem sources_place {p : Part} {t : QuotaTree} (h : place p = .ok t) :
    t.sources = p.sources := by
  rcases place_ok h with ⟨label, min, max, rfl, rfl⟩ | ⟨label, bank, rfl, rfl⟩ | rfl
  · rfl
  · rfl
  · rfl

/-- The leaves of an entry are those of its key and then those of its value. -/
theorem sources_combine {key value : Part} {t : QuotaTree} (h : combine key value = .ok t) :
    t.sources = key.sources ++ value.sources := by
  rcases combine_ok h with ⟨label, bank, other, r, hparts, min, max, -, rfl⟩ |
    ⟨other, r, q, children, rfl, rfl, -, min, max, -, rfl⟩
  · -- a range draws from nothing, on whichever side of the tag query it is
    rcases hparts with ⟨rfl, rfl⟩ | ⟨rfl, rfl⟩ <;> rfl
  · -- the narrower range changes the root of the branch only
    show (branch _ children).sources = [] ++ (branch q children).sources
    rw [List.nil_append, sources_branch, sources_branch]

/-! ## The induction over the specification -/

/-- The leaf that a tag query becomes. -/
def sourceOf (bank : List Question) (text : String) : String × List Question :=
  (text, satisfying bank text)

/-- Some sources are those of tag queries, in order, and the queries are conditions that some
questions satisfy. -/
structure Sourced (bank : List Question) (texts : List String)
    (sources : List (String × List Question)) : Prop where
  eq_map : sources = texts.map (sourceOf bank)
  means : ∀ text ∈ texts, satisfying bank text ≠ [] ∧ ∃ c, TagQuery.TextMeans text c

section
variable {bank : List Question}

theorem sourced_nil : Sourced bank [] [] := ⟨rfl, by simp⟩

/-- Leaves of two specifications one after the other. -/
theorem Sourced.append {texts texts' : List String}
    {sources sources' : List (String × List Question)} (h : Sourced bank texts sources)
    (h' : Sourced bank texts' sources') :
    Sourced bank (texts ++ texts') (sources ++ sources') where
  eq_map := by rw [List.map_append, h.eq_map, h'.eq_map]
  means text htext := (List.mem_append.mp htext).elim (h.means text) (h'.means text)

/-- The children of a list or mapping draw from the tag queries of its items, one after another. -/
theorem sourced_children {α : Type} {R : α → QuotaTree → Prop} {texts : α → List String}
    {items : List α} {children : List QuotaTree} (h : List.Forall₂ R items children)
    (hR : ∀ item child, R item child → Sourced bank (texts item) child.sources) :
    Sourced bank (items.flatMap texts) (children.flatMap sources) := by
  induction h with
  | nil => exact sourced_nil
  | cons hfirst _ ih =>
    rw [List.flatMap_cons, List.flatMap_cons]
    exact (hR _ _ hfirst).append ih

end

/-- Every part has one leaf for each tag query that it is made from. -/
theorem sourced_cases (bank : List Question) :
    PartCases bank fun spec p => Sourced bank spec.tagTexts p.sources where
  count _ := sourced_nil
  range _ _ _ := sourced_nil
  tag text q found hq hfound hne := by
    obtain ⟨hmeans, rfl⟩ := TagQuery.textMeans_of_select hq hfound hne
    refine ⟨rfl, fun text' htext' => ?_⟩
    obtain rfl := List.mem_singleton.mp htext'
    exact ⟨hne, hmeans⟩
  sequence items children h _ := by
    show Sourced bank (QuotaSpec.tagTextsOfItems items) (branch _ children).sources
    rw [QuotaSpec.tagTextsOfItems_eq_flatMap, sources_branch]
    refine sourced_children h fun item child hitem => ?_
    obtain ⟨p, hp, hplace⟩ := hitem
    exact sources_place hplace ▸ hp
  pair key value k v t hk hv ht := by
    show Sourced bank (key.tagTexts ++ value.tagTexts) t.sources
    exact sources_combine ht ▸ hk.append hv
  mapping pairs children h _ := by
    show Sourced bank (QuotaSpec.tagTextsOfPairs pairs) (branch _ children).sources
    rw [QuotaSpec.tagTextsOfPairs_eq_flatMap, sources_branch]
    refine sourced_children h fun pair child hpair => ?_
    obtain ⟨k, v, hk, hv, hcombine⟩ := hpair
    exact sources_combine hcombine ▸ hk.append hv

/-! ## The leaves of a tree that is built -/

/-- **Leaves.** The leaves of a tree that is built over a bank are, from left to right, those of the
tag queries of its specification as they are read. There is one leaf for each place where a query
stands; its label is the text of the query, and its bank has the questions of the given one that
satisfy the query, in order and at least one. Every such query is a condition, so it has an answer
for every set of tags. -/
theorem leaves_of_build {spec : QuotaSpec} {bank : List Question} {t : QuotaTree}
    (h : build spec bank = .ok t) :
    t.leaves.map (fun l => (l.quota.label, l.bank)) =
      spec.tagTexts.map (fun text =>
        (text, bank.filter fun q => TagQuery.textHolds text q.tags = .ok true)) ∧
    ∀ text ∈ spec.tagTexts,
      (∃ q ∈ bank, TagQuery.textHolds text q.tags = .ok true) ∧
      ∃ c, TagQuery.TextMeans text c ∧
        ∀ tags, TagQuery.textHolds text tags = .ok (c.value tags.contains) := by
  obtain ⟨p, hp, hplace⟩ := (sourced_cases bank).of_build h
  have hsourced : Sourced bank spec.tagTexts t.sources := sources_place hplace ▸ hp
  refine ⟨hsourced.eq_map, fun text htext => ?_⟩
  obtain ⟨hne, c, hc⟩ := hsourced.means text htext
  obtain ⟨q, hq⟩ := List.exists_mem_of_ne_nil _ hne
  obtain ⟨hmem, hholds⟩ := List.mem_filter.mp hq
  exact ⟨⟨q, hmem, of_decide_eq_true hholds⟩, c, hc, hc.textHolds⟩

/-- The specification `[a, {c: 1, 1: a b |}, {2-*: [b, {b: *}]}]`, with a tag query at each place
where one may stand, one of them twice. -/
def scatteredSpec : QuotaSpec :=
  .sequence [
    .tag "a",
    .mapping [(.tag "c", .count 1), (.count 1, .tag "a b |")],
    .pair (.range "2-*") (.sequence [.tag "b", .pair (.tag "b") (.range "*")])]

def scatteredTree : QuotaTree :=
  branch { label := "ARRAY[a,...]", min := 5, max := 6 } [
    leaf { label := "a", min := 1, max := 1 } (tagged "a" ["a0", "a1", "a2"]),
    branch { label := "DICT[c,...]", min := 2, max := 2 } [
      leaf { label := "c", min := 1, max := 1 } (tagged "c" ["c0"]),
      leaf { label := "a b |", min := 1, max := 1 }
        (tagged "a" ["a0", "a1", "a2"] ++ tagged "b" ["b0", "b1"])],
    branch { label := "ARRAY[b,...]", min := 2, max := 3 } [
      leaf { label := "b", min := 1, max := 1 } (tagged "b" ["b0", "b1"]),
      leaf { label := "b", min := 0, max := 2 } (tagged "b" ["b0", "b1"])]]

theorem leaves_scatteredTree :
    build scatteredSpec sampleBank = .ok scatteredTree ∧
    scatteredTree.leaves.map (fun l => (l.quota.label, l.bank)) =
      ["a", "c", "a b |", "b", "b"].map (fun text =>
        (text, sampleBank.filter fun q => TagQuery.textHolds text q.tags = .ok true)) ∧
    ∃ q ∈ sampleBank, TagQuery.textHolds "a b |" q.tags = .ok true := by
  have hbuild : build scatteredSpec sampleBank = .ok scatteredTree := rfl
  obtain ⟨hleaves, hmeans⟩ := leaves_of_build hbuild
  exact ⟨hbuild, hleaves, (hmeans "a b |" (by decide)).1⟩

end QuotaTree

end ExamPaper
