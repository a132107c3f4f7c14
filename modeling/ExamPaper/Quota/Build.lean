import ExamPaper.Limits
import ExamPaper.Quota.Spec
import ExamPaper.Quota.Tree

/-!
# Building quota trees

A specification is resolved against a bank from the inside out. A tag query becomes the questions
that satisfy it, a count stays a range until it is known what it counts. Standing alone, a tag query
means one question, and a count is a branch without children, which has no questions to draw. In a
mapping entry a range next to a tag query limits how many of its questions are taken, and a range
before a list or mapping narrows the range that its children sum up to.

Mirrors `build`, `build_any`, `place`, `summed`, `combine` and `merge`. A sum that no word can hold
breaks the program off in `summed`; here it is an error of its own, at which a run is broken off
(`QuotaError.overflow`).
-/

namespace ExamPaper

namespace QuotaTree

/-- A position of a specification before it is known what stands beside it. -/
inductive Part where
  | range (label : String) (r : CountRange)
  | tag (label : String) (bank : List Question)
  | node (t : QuotaTree)

namespace Part

/-- The label of a part. -/
def label : Part → String
  | range label _ => label
  | tag label _ => label
  | node t => t.quota.label

end Part

/-- The tree of a part that stands alone. -/
def place : Part → Except QuotaError QuotaTree
  | .range label ⟨min, .finite max⟩ => .ok (branch { label, min, max } [])
  | .range label ⟨_, .unbounded⟩ => .error (.unresolved label)
  | .tag label bank => .ok (leaf { label, min := 1, max := 1 } bank)
  | .node t => .ok t

/-- A sum with one more count, if a word can hold it. -/
def addCount (sum n : Nat) : Except QuotaError Nat :=
  if sum + n < wordLimit then .ok (sum + n) else .error .overflow

/-- The sum of counts from the first to the last. -/
def sumCounts (counts : List Nat) : Except QuotaError Nat := counts.foldlM addCount 0

/-- The label of the branch over some trees. -/
def summedLabel (kind : String) (children : List QuotaTree) : String :=
  let first := match children with
    | [] => ""
    | t :: _ => t.quota.label
  kind ++ "[" ++ first ++ ",...]"

/-- The branch that takes what its children take together, the minima being summed first. -/
def summed (kind : String) (children : List QuotaTree) : Except QuotaError QuotaTree :=
  match sumCounts (children.map (·.quota.min)) with
  | .error e => .error e
  | .ok min =>
    match sumCounts (children.map (·.quota.max)) with
    | .error e => .error e
    | .ok max => .ok (branch { label := summedLabel kind children, min, max } children)

/-- The range of the counts that are in both ranges; at least one of them is to be bounded, and some
count has to be in both. -/
def narrow (label : String) (own sub : CountRange) : Except QuotaError (Nat × Nat) :=
  let min := Nat.max own.min sub.min
  let max? := match own.max, sub.max with
    | .finite a, .finite b => some (Nat.min a b)
    | .finite a, .unbounded => some a
    | .unbounded, .finite b => some b
    | .unbounded, .unbounded => none
  match max? with
  | none => .error (.unresolved label)
  | some max => if max < min then .error (.emptyRange label min max) else .ok (min, max)

/-- The leaf that takes as many questions of a bank as a range says. -/
def limited (label : String) (bank : List Question) (r : CountRange) :
    Except QuotaError QuotaTree :=
  match narrow label ⟨0, .finite bank.length⟩ r with
  | .error e => .error e
  | .ok (min, max) => .ok (leaf { label, min, max } bank)

/-- The tree of a mapping entry. -/
def combine (key value : Part) : Except QuotaError QuotaTree :=
  match key, value with
  | .tag label bank, .range _ r => limited label bank r
  | .range _ r, .tag label bank => limited label bank r
  | .range _ r, .node (branch q (child :: children)) =>
    match narrow q.label r ⟨q.min, .finite q.max⟩ with
    | .error e => .error e
    | .ok (min, max) => .ok (branch { q with min, max } (child :: children))
  | key, value => .error (.invalidPairing key.label value.label)

/-- The part of a tag query: the questions that satisfy it, of which there has to be one. -/
def tagPart (bank : List Question) (text : String) : Except QuotaError Part :=
  match TagQuery.parse text with
  | .error e => .error (.query e)
  | .ok q =>
    match q.select Question.tags bank with
    | .error e => .error (.query e)
    | .ok [] => .error (.noQuestions text)
    | .ok found => .ok (.tag text found)

mutual

/-- The part of a specification. -/
def part (bank : List Question) : QuotaSpec → Except QuotaError Part
  | .count n => .ok (.range (Int.repr n) (.ofInt n))
  | .range text =>
    match CountRange.parse text with
    | .error e => .error e
    | .ok r => .ok (.range text r)
  | .tag text => tagPart bank text
  | .sequence items =>
    match places bank items with
    | .error e => .error e
    | .ok children => (summed "ARRAY" children).map .node
  | .pair key value =>
    match part bank key with
    | .error e => .error e
    | .ok key =>
      match part bank value with
      | .error e => .error e
      | .ok value => (combine key value).map .node
  | .mapping pairs =>
    match entries bank pairs with
    | .error e => .error e
    | .ok children => (summed "DICT" children).map .node

/-- The trees of specifications that stand alone, in order. -/
def places (bank : List Question) : List QuotaSpec → Except QuotaError (List QuotaTree)
  | [] => .ok []
  | item :: items =>
    match part bank item with
    | .error e => .error e
    | .ok p =>
      match place p with
      | .error e => .error e
      | .ok child =>
        match places bank items with
        | .error e => .error e
        | .ok children => .ok (child :: children)

/-- The trees of mapping entries, in order. -/
def entries (bank : List Question) :
    List (QuotaSpec × QuotaSpec) → Except QuotaError (List QuotaTree)
  | [] => .ok []
  | (key, value) :: pairs =>
    match part bank key with
    | .error e => .error e
    | .ok key =>
      match part bank value with
      | .error e => .error e
      | .ok value =>
        match combine key value with
        | .error e => .error e
        | .ok child =>
          match entries bank pairs with
          | .error e => .error e
          | .ok children => .ok (child :: children)

end

/-- The tree of a specification over a bank. It may still have nodes without questions; see
`isCorrect`. -/
def build (spec : QuotaSpec) (bank : List Question) : Except QuotaError QuotaTree :=
  match part bank spec with
  | .error e => .error e
  | .ok p => place p

end QuotaTree

end ExamPaper
