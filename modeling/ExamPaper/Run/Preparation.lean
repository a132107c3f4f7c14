import ExamPaper.Exam.Settings
import ExamPaper.Question.Bank
import ExamPaper.Quota.Build
import ExamPaper.Run.Error

/-!
# Preparing a run

What a run needs before it draws: the index, the settings, the questions of the bank and the quota
tree of the parts over them.

Mirrors `prepare`.
-/

namespace ExamPaper

/-- What a run needs before it draws. -/
structure Prepared where
  exam : ExamIndex
  settings : Settings
  questions : List Question
  tree : QuotaTree

/-- Prepares a run on a day for the index at a path. -/
def prepare [Readers] (disk : Disk) (path : Path) (overrides : Overrides) (defaults : Defaults)
    (today : Date) : Except RunError Prepared :=
  match ExamIndex.load disk path with
  | .error e => .error (.index e)
  | .ok exam =>
  match Settings.resolve exam overrides defaults today with
  | .error e => .error (.index e)
  | .ok settings =>
  match Bank.load disk settings.bank with
  | .error e => .error (.bank e)
  | .ok questions =>
  match QuotaTree.build exam.parts questions with
  | .error e => .error (.quota e)
  | .ok tree => .ok { exam, settings, questions, tree }

end ExamPaper
