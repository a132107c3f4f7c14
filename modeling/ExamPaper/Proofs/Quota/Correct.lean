import ExamPaper.Proofs.Quota.Denotation
import ExamPaper.Proofs.Quota.Stock

/-!
# Which trees are incorrect

A leaf without questions and a branch without children have nothing to draw from. Such a node makes
a tree incorrect, and the first one on the way through the tree is the one that is reported
(`firstIncorrect_finds`).

In a tree that is built from a document there is one way only to get such a node. Lists and mappings
are not empty, and a tag query that finds nothing is refused. A count has nothing to draw from
either, but beside a tag query or before a list it does no more than limit what is there. So what is
left are counts with an upper end that stand for themselves:

> A tree built is incorrect exactly if its specification is a bounded count, or some list in the
> specification has one among its items (`isCorrect_eq_false_iff_loneCount`).

The bank does not come into it, beyond its being large enough for the tree to be built.
-/

namespace ExamPaper

namespace QuotaTree

/-! ## The first node with nothing to draw from -/

/-- There is nothing to draw from: no question for a leaf, no child for a branch. -/
def Bare : QuotaTree → Prop
  | leaf _ bank => bank = []
  | branch _ children => children = []

mutual

/-- The nodes of a tree: each before those below it, and what is below one child before what is
below the next. -/
def preorder : QuotaTree → List QuotaTree
  | leaf q bank => [leaf q bank]
  | branch q children => branch q children :: preorderOf children

/-- The nodes of all trees. -/
def preorderOf : List QuotaTree → List QuotaTree
  | [] => []
  | t :: ts => preorder t ++ preorderOf ts

end

/-- What a search for a bare node among some nodes ends with. -/
inductive Finds : Option QuotaTree → List QuotaTree → Prop where
  | nothing {nodes : List QuotaTree} (skipped : ∀ v ∈ nodes, ¬ Bare v) : Finds none nodes
  /-- The first bare node is found. -/
  | first (before : List QuotaTree) {u : QuotaTree} {after : List QuotaTree}
      (skipped : ∀ v ∈ before, ¬ Bare v) (bare : Bare u) :
      Finds (some u) (before ++ u :: after)

/-- A search goes on among further nodes if nothing was found. -/
theorem Finds.append {found found' : Option QuotaTree} {nodes nodes' : List QuotaTree}
    (h : Finds found nodes) (h' : Finds found' nodes') :
    Finds (found.or found') (nodes ++ nodes') := by
  cases h with
  | nothing skipped =>
    cases h' with
    | nothing skipped' =>
      exact .nothing fun v hv => (List.mem_append.mp hv).elim (skipped v) (skipped' v)
    | first before' skipped' bare =>
      rw [← List.append_assoc]
      exact .first _ (fun v hv => (List.mem_append.mp hv).elim (skipped v) (skipped' v)) bare
  | first before skipped bare =>
    rw [List.append_assoc, List.cons_append]
    exact .first before skipped bare

/-- A node with something to draw from is passed over. -/
theorem Finds.cons {found : Option QuotaTree} {nodes : List QuotaTree} {u : QuotaTree}
    (hu : ¬ Bare u) (h : Finds found nodes) : Finds found (u :: nodes) := by
  have hself : Finds none [u] := by
    refine .nothing fun v hv => ?_
    obtain rfl := List.mem_singleton.mp hv
    exact hu
  exact hself.append h

/-- The search goes through the children in their order. -/
theorem firstIncorrectOf_finds {ts : List QuotaTree}
    (h : ∀ t ∈ ts, Finds t.firstIncorrect t.preorder) :
    Finds (firstIncorrectOf ts) (preorderOf ts) := by
  induction ts with
  | nil =>
    rw [firstIncorrectOf, preorderOf]
    exact .nothing (by simp)
  | cons t ts ih =>
    obtain ⟨ht, hts⟩ := List.forall_mem_cons.mp h
    rw [firstIncorrectOf, preorderOf]
    exact ht.append (ih hts)

/-- The node reported is the first bare one. -/
theorem firstIncorrect_finds (t : QuotaTree) : Finds t.firstIncorrect t.preorder := by
  induction t with
  | leaf q bank =>
    rw [firstIncorrect, preorder]
    cases bank with
    | nil =>
      have hbare : Bare (leaf q []) := rfl
      exact .first [] (by simp) hbare
    | cons x bank =>
      refine .nothing fun v hv => ?_
      obtain rfl := List.mem_singleton.mp hv
      exact List.cons_ne_nil x bank
  | branch q children ih =>
    rw [firstIncorrect, preorder]
    cases children with
    | nil =>
      have hbare : Bare (branch q []) := rfl
      rw [preorderOf]
      exact .first [] (by simp) hbare
    | cons c children =>
      have hnext : Finds (firstIncorrectOf (c :: children)) (preorderOf (c :: children)) :=
        firstIncorrectOf_finds ih
      exact hnext.cons (List.cons_ne_nil c children)

end QuotaTree

/-! ## Counts that stand for themselves -/

namespace QuotaSpec

/-- A count with an upper end. -/
def BoundedCount (spec : QuotaSpec) : Prop := ∃ min max, spec.Ranges ⟨min, .finite max⟩

/-- A specification stands somewhere in another one, or is that one. -/
inductive Within (inner : QuotaSpec) : QuotaSpec → Prop where
  | self : Within inner inner
  | item {items : List QuotaSpec} {item : QuotaSpec} (mem : item ∈ items)
      (inside : Within inner item) : Within inner (.sequence items)
  | key {key value : QuotaSpec} (inside : Within inner key) : Within inner (.pair key value)
  | value {key value : QuotaSpec} (inside : Within inner value) : Within inner (.pair key value)
  | entryKey {pairs : List (QuotaSpec × QuotaSpec)} {entry : QuotaSpec × QuotaSpec}
      (mem : entry ∈ pairs) (inside : Within inner entry.1) : Within inner (.mapping pairs)
  | entryValue {pairs : List (QuotaSpec × QuotaSpec)} {entry : QuotaSpec × QuotaSpec}
      (mem : entry ∈ pairs) (inside : Within inner entry.2) : Within inner (.mapping pairs)

/-- Some list in the specification has a bounded count among its items. -/
def HasLoneCount (spec : QuotaSpec) : Prop :=
  ∃ items, Within (.sequence items) spec ∧ ∃ item ∈ items, item.BoundedCount

/-- A specification with a bounded count in a list is more than a count or a tag. -/
theorem HasLoneCount.nested {spec : QuotaSpec} (h : spec.HasLoneCount) : spec.Nested := by
  obtain ⟨items, hwithin, -⟩ := h
  cases hwithin with
  | self => exact .sequence
  | item mem inside => exact .sequence
  | key inside => exact .pair
  | value inside => exact .pair
  | entryKey mem inside => exact .mapping
  | entryValue mem inside => exact .mapping

/-- What is a range has no other specification in it. -/
theorem Ranges.not_nested {spec : QuotaSpec} {r : CountRange} (h : spec.Ranges r) :
    ¬ spec.Nested := by
  intro hnested
  cases hnested <;> cases h

/-- A list has a bounded count in a list if it has one among its own items or in one of them. -/
theorem hasLoneCount_sequence {items : List QuotaSpec} :
    HasLoneCount (.sequence items) ↔ ∃ item ∈ items, item.BoundedCount ∨ item.HasLoneCount := by
  constructor
  · intro h
    obtain ⟨inner, hwithin, item, hitem, hcount⟩ := h
    cases hwithin with
    | self => exact ⟨item, hitem, Or.inl hcount⟩
    | item mem inside => exact ⟨_, mem, Or.inr ⟨inner, inside, item, hitem, hcount⟩⟩
  · intro h
    obtain ⟨item, hitem, hcount | ⟨inner, hwithin, hinner⟩⟩ := h
    · exact ⟨items, .self, item, hitem, hcount⟩
    · exact ⟨inner, .item hitem hwithin, hinner⟩

/-- In a mapping entry bounded counts stand in lists of the key or of the value. -/
theorem hasLoneCount_pair {key value : QuotaSpec} :
    HasLoneCount (.pair key value) ↔ key.HasLoneCount ∨ value.HasLoneCount := by
  constructor
  · intro h
    obtain ⟨inner, hwithin, hinner⟩ := h
    cases hwithin with
    | key inside => exact Or.inl ⟨inner, inside, hinner⟩
    | value inside => exact Or.inr ⟨inner, inside, hinner⟩
  · intro h
    rcases h with ⟨inner, hwithin, hinner⟩ | ⟨inner, hwithin, hinner⟩
    · exact ⟨inner, .key hwithin, hinner⟩
    · exact ⟨inner, .value hwithin, hinner⟩

/-- In a mapping they stand in lists of one of its entries. -/
theorem hasLoneCount_mapping {pairs : List (QuotaSpec × QuotaSpec)} :
    HasLoneCount (.mapping pairs) ↔
      ∃ entry ∈ pairs, entry.1.HasLoneCount ∨ entry.2.HasLoneCount := by
  constructor
  · intro h
    obtain ⟨inner, hwithin, hinner⟩ := h
    cases hwithin with
    | entryKey mem inside => exact ⟨_, mem, Or.inl ⟨inner, inside, hinner⟩⟩
    | entryValue mem inside => exact ⟨_, mem, Or.inr ⟨inner, inside, hinner⟩⟩
  · intro h
    obtain ⟨entry, hentry, ⟨inner, hwithin, hinner⟩ | ⟨inner, hwithin, hinner⟩⟩ := h
    · exact ⟨inner, .entryKey hentry hwithin, hinner⟩
    · exact ⟨inner, .entryValue hentry hwithin, hinner⟩

/-! ## Specifications of documents -/

/-- No list and no mapping in the specification is empty. -/
inductive Filled : QuotaSpec → Prop where
  | count {n : Int} : Filled (.count n)
  | range {text : String} : Filled (.range text)
  | tag {text : String} : Filled (.tag text)
  | sequence {items : List QuotaSpec} (ne_nil : items ≠ [])
      (inside : ∀ item ∈ items, Filled item) : Filled (.sequence items)
  | pair {key value : QuotaSpec} (key_inside : Filled key) (value_inside : Filled value) :
      Filled (.pair key value)
  | mapping {pairs : List (QuotaSpec × QuotaSpec)} (ne_nil : pairs ≠ [])
      (keys_inside : ∀ entry ∈ pairs, Filled entry.1)
      (values_inside : ∀ entry ∈ pairs, Filled entry.2) : Filled (.mapping pairs)

/-- A list of items is read item by item. -/
theorem ofItems_cons_ok {v : Value} {items : List Value} {specs : List QuotaSpec}
    (h : ofItems (v :: items) = .ok specs) :
    ∃ spec rest, ofValue v = .ok spec ∧ ofItems items = .ok rest ∧ specs = spec :: rest := by
  rw [ofItems] at h
  cases hv : ofValue v with
  | error e => rw [hv] at h; exact absurd h (by simp)
  | ok spec =>
    simp only [hv] at h
    cases hrest : ofItems items with
    | error e => rw [hrest] at h; exact absurd h (by simp)
    | ok rest =>
      rw [hrest] at h
      exact ⟨spec, rest, rfl, rfl, (Except.ok.inj h).symm⟩

/-- A mapping is read entry by entry. -/
theorem ofEntries_cons_ok {k v : Value} {entries : List (Value × Value)}
    {pairs : List (QuotaSpec × QuotaSpec)} (h : ofEntries ((k, v) :: entries) = .ok pairs) :
    ∃ key value rest, ofValue k = .ok key ∧ ofValue v = .ok value ∧
      ofEntries entries = .ok rest ∧ pairs = (key, value) :: rest := by
  rw [ofEntries] at h
  cases hk : ofValue k with
  | error e => rw [hk] at h; exact absurd h (by simp)
  | ok key =>
    simp only [hk] at h
    cases hv : ofValue v with
    | error e => rw [hv] at h; exact absurd h (by simp)
    | ok value =>
      simp only [hv] at h
      cases hrest : ofEntries entries with
      | error e => rw [hrest] at h; exact absurd h (by simp)
      | ok rest =>
        rw [hrest] at h
        exact ⟨key, value, rest, rfl, rfl, rfl, (Except.ok.inj h).symm⟩

theorem filled_of_ofText {value : Value} {s : String} {spec : QuotaSpec}
    (h : ofText value s = .ok spec) : spec.Filled := by
  unfold ofText at h
  dsimp only at h
  split at h
  · exact absurd h (by simp)
  · split at h
    · exact Except.ok.inj h ▸ .range
    · exact Except.ok.inj h ▸ .tag

theorem filled_of_ofNumber {value : Value} {n : Number} {spec : QuotaSpec}
    (h : ofNumber value n = .ok spec) : spec.Filled := by
  unfold ofNumber at h
  split at h
  · split at h
    · exact Except.ok.inj h ▸ .count
    · exact absurd h (by simp)
  · exact absurd h (by simp)

mutual

/-- No list and no mapping of a specification that is read is empty. -/
theorem filled_of_ofValue : ∀ {v : Value} {spec : QuotaSpec}, ofValue v = .ok spec → spec.Filled
  | .number n, spec, h => by
    rw [ofValue] at h
    exact filled_of_ofNumber h
  | .text s, spec, h => by
    rw [ofValue] at h
    exact filled_of_ofText h
  | .list items, spec, h => by
    rw [ofValue] at h
    cases hitems : ofItems items with
    | error e => rw [hitems] at h; exact absurd h (by simp)
    | ok specs =>
      rw [hitems] at h
      have hinside := filled_of_ofItems hitems
      cases specs with
      | nil => exact absurd h (by simp)
      | cons first specs => exact Except.ok.inj h ▸ .sequence (by simp) hinside
  | .mapping entries, spec, h => by
    rw [ofValue] at h
    cases hentries : ofEntries entries with
    | error e => rw [hentries] at h; exact absurd h (by simp)
    | ok pairs =>
      rw [hentries] at h
      have hinside := filled_of_ofEntries hentries
      cases pairs with
      | nil => exact absurd h (by simp)
      | cons first pairs =>
        obtain ⟨hkey, hvalue⟩ := hinside first List.mem_cons_self
        cases pairs with
        | nil => exact Except.ok.inj h ▸ .pair hkey hvalue
        | cons second pairs =>
          exact Except.ok.inj h ▸ .mapping (by simp) (fun entry hentry => (hinside entry hentry).1)
            fun entry hentry => (hinside entry hentry).2
  | .null, spec, h => by rw [ofValue] at h; exact absurd h (by simp)
  | .bool b, spec, h => by rw [ofValue] at h; exact absurd h (by simp)
  | .tagged t v, spec, h => by rw [ofValue] at h; exact absurd h (by simp)

theorem filled_of_ofItems : ∀ {items : List Value} {specs : List QuotaSpec},
    ofItems items = .ok specs → ∀ spec ∈ specs, spec.Filled
  | [], specs, h => by
    rw [ofItems, Except.ok.injEq] at h
    simp [← h]
  | v :: items, specs, h => by
    obtain ⟨spec, rest, hv, hrest, rfl⟩ := ofItems_cons_ok h
    exact List.forall_mem_cons.mpr ⟨filled_of_ofValue hv, filled_of_ofItems hrest⟩

theorem filled_of_ofEntries : ∀ {entries : List (Value × Value)}
    {pairs : List (QuotaSpec × QuotaSpec)}, ofEntries entries = .ok pairs →
      ∀ entry ∈ pairs, entry.1.Filled ∧ entry.2.Filled
  | [], pairs, h => by
    rw [ofEntries, Except.ok.injEq] at h
    simp [← h]
  | (k, v) :: entries, pairs, h => by
    obtain ⟨key, value, rest, hk, hv, hrest, rfl⟩ := ofEntries_cons_ok h
    exact List.forall_mem_cons.mpr
      ⟨⟨filled_of_ofValue hk, filled_of_ofValue hv⟩, filled_of_ofEntries hrest⟩

end

end QuotaSpec

/-! ## The parts of a specification -/

namespace QuotaTree

open QuotaSpec

/-- What a part tells of bounded counts in the specification that it is made from. -/
def CountsShow (spec : QuotaSpec) : Part → Prop
  | .range _ r => ∀ r', spec.Ranges r' ↔ r' = r
  | .tag _ found => found ≠ [] ∧ ∃ text, spec = .tag text
  | .node t => spec.Nested ∧ (spec.Filled → (t.isCorrect = false ↔ spec.HasLoneCount))

/-- A branch with children is incorrect if one of them is. -/
theorem isCorrect_branch_eq_false {q : Quota} {children : List QuotaTree} (hne : children ≠ []) :
    (branch q children).isCorrect = false ↔ ∃ c ∈ children, c.isCorrect = false := by
  rw [← Bool.not_eq_true, isCorrect_branch]
  simp [hne]

/-- An item that stands alone is incorrect if it is a bounded count or has one in a list. -/
theorem isCorrect_place {spec : QuotaSpec} {p : Part} {t : QuotaTree} (hp : CountsShow spec p)
    (hfilled : spec.Filled) (h : place p = .ok t) :
    t.isCorrect = false ↔ spec.BoundedCount ∨ spec.HasLoneCount := by
  rcases place_ok h with ⟨label, min, max, rfl, rfl⟩ | ⟨label, found, rfl, rfl⟩ | rfl
  · exact iff_of_true rfl (Or.inl ⟨min, max, (hp _).mpr rfl⟩)
  · obtain ⟨hne, text, rfl⟩ := hp
    refine iff_of_false (by simp [isCorrect, hne]) fun hcount => ?_
    -- a tag query is neither a count nor made up of others
    rcases hcount with ⟨min, max, hr⟩ | hlone
    · cases hr
    · cases hlone.nested
  · obtain ⟨hnested, hlone⟩ := hp
    rw [hlone hfilled]
    refine ⟨Or.inr, fun hcount => ?_⟩
    rcases hcount with ⟨min, max, hr⟩ | hlone
    · exact absurd hnested hr.not_nested
    · exact hlone

/-- A range has no lists in it. -/
theorem not_hasLoneCount_of_range {spec : QuotaSpec} {label : String} {r : CountRange}
    (hp : CountsShow spec (.range label r)) : ¬ spec.HasLoneCount := by
  intro hlone
  have hself : spec.Ranges r := (hp r).mpr rfl
  exact hself.not_nested hlone.nested

/-- A tag query has no lists in it. -/
theorem not_hasLoneCount_of_tag {spec : QuotaSpec} {label : String} {found : List Question}
    (hp : CountsShow spec (.tag label found)) : ¬ spec.HasLoneCount := by
  intro hlone
  obtain ⟨-, text, rfl⟩ := hp
  cases hlone.nested

/-- The tree of a mapping entry is incorrect if key or value have a bounded count in a list. -/
theorem isCorrect_combine {key value : QuotaSpec} {k v : Part} {t : QuotaTree}
    (hk : CountsShow key k) (hv : CountsShow value v) (hfilled : value.Filled)
    (h : combine k v = .ok t) :
    t.isCorrect = false ↔ key.HasLoneCount ∨ value.HasLoneCount := by
  rcases combine_ok h with ⟨label, found, other, r, hparts, min, max, -, rfl⟩ |
    ⟨other, r, q, children, rfl, rfl, -, min, max, -, rfl⟩
  · -- a tag query that found something, and a range
    have hfound : found ≠ [] ∧ ¬ key.HasLoneCount ∧ ¬ value.HasLoneCount := by
      rcases hparts with ⟨rfl, rfl⟩ | ⟨rfl, rfl⟩
      · exact ⟨hk.1, not_hasLoneCount_of_tag hk, not_hasLoneCount_of_range hv⟩
      · exact ⟨hv.1, not_hasLoneCount_of_range hk, not_hasLoneCount_of_tag hv⟩
    obtain ⟨hne, hkey, hvalue⟩ := hfound
    exact iff_of_false (by simp [isCorrect, hne]) fun hlone => hlone.elim hkey hvalue
  · -- a range before a branch, which keeps its children
    rw [or_iff_right (not_hasLoneCount_of_range hk)]
    exact hv.2 hfilled

/-- Where two lists match element by element, one of them has an element of a kind exactly if the
other has one of the corresponding kind. -/
theorem exists_mem_iff_of_forall₂ {α β : Type} {R : α → β → Prop} {P : α → Prop} {Q : β → Prop}
    {as : List α} {bs : List β} (h : List.Forall₂ R as bs)
    (hPQ : ∀ a ∈ as, ∀ b, R a b → (P a ↔ Q b)) : (∃ a ∈ as, P a) ↔ ∃ b ∈ bs, Q b := by
  induction h with
  | nil => simp
  | cons hab _ ih =>
    obtain ⟨hfirst, hrest⟩ := List.forall_mem_cons.mp hPQ
    rw [List.exists_mem_cons_iff, List.exists_mem_cons_iff, hfirst _ hab, ih hrest]

/-- Trees that are put together are incorrect if one of them is. -/
theorem isCorrect_together {α : Type} {R : α → QuotaTree → Prop} {P : α → Prop} {items : List α}
    {children : List QuotaTree} {kind : String} (h : List.Forall₂ R items children)
    (hne : items ≠ []) (hP : ∀ item ∈ items, ∀ c, R item c → (P item ↔ c.isCorrect = false)) :
    (together kind children).isCorrect = false ↔ ∃ item ∈ items, P item := by
  have hchildren : children ≠ [] := by
    intro hnil
    rw [hnil] at h
    exact hne (List.forall₂_nil_right_iff.mp h)
  rw [exists_mem_iff_of_forall₂ h hP]
  exact isCorrect_branch_eq_false hchildren

/-- Every part tells of the bounded counts of what it is made from. -/
theorem countsShow_cases (bank : List Question) : PartCases bank CountsShow where
  count _ := ranges_count_iff
  range _ _ h := ranges_range_iff h
  tag text _ _ _ _ hne := ⟨hne, text, rfl⟩
  sequence items children h _ := by
    refine ⟨.sequence, fun hfilled => ?_⟩
    cases hfilled with
    | sequence ne_nil inside =>
      rw [hasLoneCount_sequence]
      refine isCorrect_together h ne_nil fun item hitem c hc => ?_
      obtain ⟨p, hp, hplace⟩ := hc
      exact (isCorrect_place hp (inside item hitem) hplace).symm
  pair key value k v t hk hv ht := by
    refine ⟨.pair, fun hfilled => ?_⟩
    cases hfilled with
    | pair key_inside value_inside =>
      rw [hasLoneCount_pair]
      exact isCorrect_combine hk hv value_inside ht
  mapping pairs children h _ := by
    refine ⟨.mapping, fun hfilled => ?_⟩
    cases hfilled with
    | mapping ne_nil keys_inside values_inside =>
      rw [hasLoneCount_mapping]
      refine isCorrect_together h ne_nil fun entry hentry c hc => ?_
      obtain ⟨k, v, hk, hv, hcombine⟩ := hc
      exact (isCorrect_combine hk hv (values_inside entry hentry) hcombine).symm

/-! ## Incorrect trees -/

/-- **Incorrect trees.** A tree is correct exactly if no node is reported, and the node reported is
the first one, parents before children and children from left to right, with nothing to draw from. A
tree that is built from a specification read from a document, over whatever bank, is incorrect
exactly if the specification is a bounded count or some list in it has one among its items. -/
theorem isCorrect_eq_false_iff_loneCount :
    (∀ t : QuotaTree, (t.isCorrect = true ↔ t.firstIncorrect = none) ∧
      Finds t.firstIncorrect t.preorder) ∧
    ∀ (v : Value) (spec : QuotaSpec) (bank : List Question) (t : QuotaTree),
      QuotaSpec.ofValue v = .ok spec → build spec bank = .ok t →
        (t.isCorrect = false ↔ spec.BoundedCount ∨
          ∃ items, Within (.sequence items) spec ∧ ∃ item ∈ items, item.BoundedCount) := by
  refine ⟨fun t => ⟨firstIncorrect_eq_none_iff.symm, firstIncorrect_finds t⟩, ?_⟩
  intro v spec bank t hspec hbuild
  obtain ⟨p, hp, hplace⟩ := (countsShow_cases bank).of_build hbuild
  exact isCorrect_place hp (filled_of_ofValue hspec) hplace

/-- The document `[a, {1-*: [b, 2]}]`. -/
def loneCountValue : Value :=
  .list [.text "a", .mapping [(.text "1-*", .list [.text "b", .number (.int 2)])]]

def loneCountSpec : QuotaSpec :=
  .sequence [.tag "a", .pair (.range "1-*") (.sequence [.tag "b", .count 2])]

/-- Its tree: the range before the inner list limits the list, and its last item stays a node with
nothing to draw from. -/
def loneCountTree : QuotaTree :=
  branch { label := "ARRAY[a,...]", min := 4, max := 4 } [
    leaf { label := "a", min := 1, max := 1 } (tagged "a" ["a0", "a1", "a2"]),
    branch { label := "ARRAY[b,...]", min := 3, max := 3 } [
      leaf { label := "b", min := 1, max := 1 } (tagged "b" ["b0", "b1"]),
      branch { label := "2", min := 2, max := 2 } []]]

theorem isCorrect_loneCountTree :
    QuotaSpec.ofValue loneCountValue = .ok loneCountSpec ∧
    build loneCountSpec sampleBank = .ok loneCountTree ∧ loneCountTree.isCorrect = false ∧
    loneCountTree.firstIncorrect = some (branch { label := "2", min := 2, max := 2 } []) ∧
    Finds loneCountTree.firstIncorrect loneCountTree.preorder ∧
    (loneCountSpec.BoundedCount ∨
      ∃ items, Within (.sequence items) loneCountSpec ∧ ∃ item ∈ items, item.BoundedCount) := by
  have hspec : QuotaSpec.ofValue loneCountValue = .ok loneCountSpec := rfl
  have hbuild : build loneCountSpec sampleBank = .ok loneCountTree := rfl
  have hincorrect : loneCountTree.isCorrect = false := rfl
  obtain ⟨hfirst, hlone⟩ := isCorrect_eq_false_iff_loneCount
  exact ⟨hspec, hbuild, hincorrect, rfl, (hfirst _).2,
    (hlone _ _ _ _ hspec hbuild).mp hincorrect⟩

end QuotaTree

end ExamPaper
