import ExamPaper.File.Disk
import ExamPaper.Question.Basic

/-!
# Errors of a question bank

Why the questions of a bank cannot be had. Everything that is wrong with a question names the file
and the position of the document in it.
-/

namespace ExamPaper

/-- What is wrong with a field of a question. -/
inductive FieldFault where
  | nameNotScalar
  | notANumber
  | negative
  | notPositive
  | notATruthValue
  /-- An item of a list of tags that is no single value. -/
  | itemNotScalar
  | notTags
  deriving DecidableEq, Repr

/-- The text of a fault. -/
def FieldFault.reason : FieldFault → String
  | nameNotScalar => "field names must be scalars"
  | notANumber => "not a number"
  | negative => "must be a non-negative number"
  | notPositive => "must be a positive number"
  | notATruthValue => "must be a boolean"
  | itemNotScalar => "tags must be scalars"
  | notTags => "expected a tag or a list of tags"

/-- Why the questions of a bank cannot be had. -/
inductive BankError where
  | missing (path : Path)
  /-- A directory below the root of the bank that cannot be entered. -/
  | closed (root path : Path) (cause : DiskError)
  | unreadable (path : Path) (cause : DiskError)
  | notYaml (path : Path)
  | notAMapping (origin : Origin)
  | missingField (origin : Origin) (field : String)
  | invalidField (origin : Origin) (field : String) (fault : FieldFault)
  /-- A difficulty of zero outside of scaffold questions. -/
  | zeroDifficulty (origin : Origin)
  | empty (path : Path)
  deriving DecidableEq, Repr

/-- How a place in a bank is named. -/
def Origin.text (o : Origin) : String :=
  o.path.text ++ " (document " ++ Nat.repr o.document ++ ")"

/-- The text of an error. -/
def BankError.message : BankError → String
  | missing path => "question bank does not exist: " ++ path.text
  | closed root path cause =>
    "failed to walk question bank " ++ root.text ++ ": IO error for operation on " ++ path.text ++
      ": " ++ cause.message
  | unreadable path cause => "failed to read question file " ++ path.text ++ ": " ++ cause.message
  | notYaml path => "invalid YAML in " ++ path.text ++ ": a document cannot be read"
  | notAMapping origin => origin.text ++ ": question is not a mapping"
  | missingField origin field => origin.text ++ ": missing required field '" ++ field ++ "'"
  | invalidField origin field fault =>
    origin.text ++ ": invalid field '" ++ field ++ "': " ++ fault.reason
  | zeroDifficulty origin =>
    origin.text ++ ": difficulty 0 is the old format, declare `scaffold: true` instead"
  | empty path => "no questions found in " ++ path.text

end ExamPaper
