import ExamPaper.Question.Record
import ExamPaper.Readers

/-!
# Question banks

A bank is a file or the question files of a directory, which end in `.yaml` or `.yml`. Files come in
the order of their names, what is in a directory at the place of its name, so that a seed always
sees the bank in one order.

Mirrors `load_questions`, `load_question_file`, `parse_questions` and `is_question_file`. What walks
through a directory is one of the `Readers`.
-/

namespace ExamPaper

namespace Bank

variable [Readers]

/-- The questions of the text of a file. -/
def parse (path : Path) (text : String) : Except BankError (List Question) :=
  Question.ofDocuments path (Readers.documents text)

/-- Whether a path is that of a question file. -/
def isQuestionFile (path : Path) : Bool :=
  path.extension? == some "yaml" || path.extension? == some "yml"

/-- Whether a bank takes notice of what a walk comes to. -/
def isNoticed (path : Path) : Disk.Found → Bool
  | .file _ => isQuestionFile path
  | .closedDirectory => true

/-- The questions of what a walk from a path comes to, in order. -/
def parseAll (root : Path) : List (Path × Disk.Found) → Except BankError (List Question)
  | [] => .ok []
  | (path, .closedDirectory) :: _ => .error (.closed root path .nameTooLong)
  | (path, .file none) :: _ => .error (.unreadable path .notText)
  | (path, .file (some text)) :: found =>
    match parse path text with
    | .error e => .error e
    | .ok qs => (parseAll root found).map (qs ++ ·)

/-- The questions of the bank at a path. -/
def load (disk : Disk) (root : Path) : Except BankError (List Question) :=
  if disk.contains root then
    let noticed := (Readers.filesBelow disk root).filter fun (path, found) => isNoticed path found
    match parseAll root noticed with
    | .error e => .error e
    | .ok [] => .error (.empty root)
    | .ok qs => .ok qs
  else .error (.missing root)

end Bank

end ExamPaper
