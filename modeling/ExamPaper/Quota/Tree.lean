import ExamPaper.Question.Basic
import ExamPaper.Quota.Error

/-!
# Quota trees

A quota tree says how many questions to take from which part of the bank. A leaf draws from the
questions that satisfy a tag query; a branch splits its number among its children. Each node has a
label, a minimum, a maximum, and the number taken so far.

Mirrors `QuotaNode` with `can_grow`, `has_to_grow`, `is_correct`, `first_incorrect`, `reset`,
`leaves` and its text.
-/

namespace ExamPaper

/-- What every node of a quota tree has. -/
structure Quota where
  label : String
  min : Nat
  max : Nat
  taken : Nat := 0
  deriving DecidableEq, Repr, Inhabited

namespace Quota

/-- Whether one more question may be taken. -/
def canGrow (q : Quota) : Bool := q.taken < q.max

/-- Whether one more question has to be taken. -/
def hasToGrow (q : Quota) : Bool := q.taken < q.min

/-- The quota with one more question taken. -/
def grown (q : Quota) : Quota := { q with taken := q.taken + 1 }

end Quota

/-- A quota resolved against a bank. -/
inductive QuotaTree where
  /-- Takes questions from a bank of its own. -/
  | leaf (quota : Quota) (bank : List Question)
  /-- Splits its number among its children. -/
  | branch (quota : Quota) (children : List QuotaTree)
  deriving Repr, Inhabited

/-- A leaf of a quota tree. -/
structure QuotaLeaf where
  quota : Quota
  bank : List Question
  deriving Repr

namespace QuotaTree

/-- The quota at the root. -/
def quota : QuotaTree → Quota
  | leaf q _ => q
  | branch q _ => q

/-- Whether one more question may be taken. -/
def canGrow (t : QuotaTree) : Bool := t.quota.canGrow

/-- Whether one more question has to be taken. -/
def hasToGrow (t : QuotaTree) : Bool := t.quota.hasToGrow

mutual

/-- Whether every node has questions or children. -/
def isCorrect : QuotaTree → Bool
  | leaf _ bank => !bank.isEmpty
  | branch _ children => !children.isEmpty && areCorrect children

/-- Whether every node of all trees has questions or children. -/
def areCorrect : List QuotaTree → Bool
  | [] => true
  | t :: ts => isCorrect t && areCorrect ts

end

mutual

/-- The first node, a parent coming before its children, with neither questions nor children. -/
def firstIncorrect : QuotaTree → Option QuotaTree
  | leaf q bank => if bank.isEmpty then some (leaf q bank) else none
  | branch q children =>
    if children.isEmpty then some (branch q children) else firstIncorrectOf children

/-- The first node of the trees with neither questions nor children. -/
def firstIncorrectOf : List QuotaTree → Option QuotaTree
  | [] => none
  | t :: ts => (firstIncorrect t).or (firstIncorrectOf ts)

end

mutual

/-- The leaves from left to right. -/
def leaves : QuotaTree → List QuotaLeaf
  | leaf q bank => [⟨q, bank⟩]
  | branch _ children => leavesOf children

/-- The leaves of all trees from left to right. -/
def leavesOf : List QuotaTree → List QuotaLeaf
  | [] => []
  | t :: ts => leaves t ++ leavesOf ts

end

mutual

/-- The tree with nothing taken. -/
def reset : QuotaTree → QuotaTree
  | leaf q bank => leaf { q with taken := 0 } bank
  | branch q children => branch { q with taken := 0 } (resetAll children)

/-- The trees with nothing taken. -/
def resetAll : List QuotaTree → List QuotaTree
  | [] => []
  | t :: ts => reset t :: resetAll ts

end

/-- The line that shows a node. -/
def line (depth : Nat) (q : Quota) : String :=
  String.join (List.replicate depth "  ") ++ q.label ++ " [" ++ Nat.repr q.min ++ ":" ++
    Nat.repr q.max ++ "] -> " ++ Nat.repr q.taken ++ "\n"

mutual

/-- The lines that show a tree, indented by its depth. -/
def render (depth : Nat) : QuotaTree → String
  | leaf q bank =>
    line depth q ++ String.join (List.replicate depth "  ") ++ "  bank: " ++
      Nat.repr bank.length ++ "\n"
  | branch q children => line depth q ++ renderAll (depth + 1) children

/-- The lines that show several trees. -/
def renderAll (depth : Nat) : List QuotaTree → String
  | [] => ""
  | t :: ts => render depth t ++ renderAll depth ts

end

/-- The lines that show a tree. -/
def text (t : QuotaTree) : String := render 0 t

end QuotaTree

end ExamPaper
