import ExamPaper.Tag.Query

/-!
# Quota errors

Why a quota cannot be read, built or filled, and the texts that report it.
-/

namespace ExamPaper

/-- What is wrong with a value that should be a quota. -/
inductive QuotaFault where
  | notAnInteger
  | emptyText
  | emptyList
  | emptyMapping
  | null
  | truthValue
  | tag
  | notACountRange
  /-- The text is no YAML document. -/
  | notADocument
  deriving DecidableEq, Repr

namespace QuotaFault

/-- The text that reports the fault. -/
def message : QuotaFault → String
  | notAnInteger => "counts must be integers"
  | emptyText => "empty text"
  | emptyList => "empty list"
  | emptyMapping => "empty mapping"
  | null => "null is not a quota"
  | truthValue => "booleans are not quotas"
  | tag => "tagged values are not quotas"
  | notACountRange => "not a count range"
  | notADocument => "not a YAML document"

end QuotaFault

/-- Why a quota cannot be read, built or filled. -/
inductive QuotaError where
  | invalidSpec (label : String) (fault : QuotaFault)
  | emptyRange (label : String) (min max : Nat)
  /-- A tag query that no question satisfies. -/
  | noQuestions (query : String)
  /-- A mapping entry neither side of which is a count range. -/
  | invalidPairing (key value : String)
  /-- A count range without an upper end that stands alone. -/
  | unresolved (label : String)
  /-- A node with neither questions nor children. -/
  | incorrectTree (label : String)
  | cannotGrow (label : String) (max : Nat)
  | noGrowableChild (label : String)
  | amountOutOfRange (amount min max : Nat)
  | query (e : TagQueryError)
  /-- A sum of counts that no word can hold; a run is broken off at it. -/
  | overflow
  deriving DecidableEq, Repr

namespace QuotaError

/-- The text that reports the error. -/
def message : QuotaError → String
  | invalidSpec label fault => "invalid quota '" ++ label ++ "': " ++ fault.message
  | emptyRange label min max =>
    "quota '" ++ label ++ "' has an empty range [" ++ Nat.repr min ++ ":" ++ Nat.repr max ++
      "] (maybe there are not enough questions in the bank)"
  | noQuestions text => "tag query '" ++ text ++ "' matches no question in the bank"
  | invalidPairing key value =>
    "cannot pair key '" ++ key ++ "' with value '" ++ value ++
      "': one side must be a count range"
  | unresolved label => "quota '" ++ label ++ "' is unbounded and nothing limits it"
  | incorrectTree label =>
    "quota tree is not correct: '" ++ label ++ "' has neither questions nor children"
  | cannotGrow label max => "quota '" ++ label ++ "' cannot grow past " ++ Nat.repr max
  | noGrowableChild label => "quota '" ++ label ++ "' has no child able to grow"
  | amountOutOfRange amount min max =>
    "cannot take " ++ Nat.repr amount ++ " questions from a quota in [" ++ Nat.repr min ++ ":" ++
      Nat.repr max ++ "]"
  | query e => e.message
  | overflow => "attempt to add with overflow"

/-- Whether a run is broken off at the error, without a report. -/
def breaksOff : QuotaError → Bool
  | overflow => true
  | _ => false

end QuotaError

end ExamPaper
