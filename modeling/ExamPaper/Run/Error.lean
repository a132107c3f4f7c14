import ExamPaper.Configuration.Error
import ExamPaper.Exam.Error
import ExamPaper.Exam.Outputs
import ExamPaper.Question.Error
import ExamPaper.Selection.Search
import ExamPaper.Template.Error

/-!
# Errors of a run

Whatever can go wrong between the command line and the written files.

Mirrors `ExamError`. Where the program is broken off it gives no error; here it is one for which
`breaksOff` holds.
-/

namespace ExamPaper

/-- Why a run fails. -/
inductive RunError where
  | configuration (e : ConfigurationError)
  | index (e : IndexError)
  | bank (e : BankError)
  | quota (e : QuotaError)
  | sample (e : OversizedSample)
  | template (e : TemplateError)
  | output (e : OutputError)
  deriving DecidableEq, Repr

namespace RunError

/-- The text of an error. -/
def message : RunError → String
  | configuration e => e.message
  | index e => e.message
  | bank e => e.message
  | quota e => e.message
  | sample e => e.message
  | template e => e.message
  | output e => e.message

/-- Whether a run is broken off at the error, without a report. -/
def breaksOff : RunError → Bool
  | quota e => e.breaksOff
  | template e => e.breaksOff
  | _ => false

/-- The error of a run whose search fails. -/
def ofSearch : SearchError → RunError
  | .quota e => quota e
  | .sample e => sample e

end RunError

end ExamPaper
