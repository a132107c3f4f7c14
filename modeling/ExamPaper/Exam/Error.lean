import ExamPaper.File.Disk
import ExamPaper.Macro.Definition
import ExamPaper.Quota.Error

/-!
# Errors of an exam index

Why an exam index cannot be read or written, or does not say all that a run needs, and the texts
that report it.
-/

namespace ExamPaper

/-- What is wrong with a field of an exam index. -/
inductive IndexFault where
  | notANumber
  | notPositive
  | notACount
  | notAPath
  /-- An output file that is no text, or has no name. -/
  | notAFileName
  /-- Output files that are neither a text nor a list. -/
  | notFileNames
  | noFile
  | notText
  deriving DecidableEq, Repr

/-- The text of a fault. -/
def IndexFault.reason : IndexFault → String
  | notANumber => "not a number"
  | notPositive => "must be a positive number"
  | notACount => "must be a non-negative integer"
  | notAPath => "must be a path"
  | notAFileName => "entries must be file names"
  | notFileNames => "expected a file name or a list of them"
  | noFile => "at least one output file is required"
  | notText => "must be text"

/-- Why an exam index cannot be used. -/
inductive IndexError where
  | missing (path : Path)
  | unreadable (path : Path) (cause : DiskError)
  | notYaml (path : Path)
  | notAMapping (path : Path)
  | missingField (field : String)
  | invalidField (field : String) (fault : IndexFault)
  /-- An output file whose name without extension is a field of another meaning. -/
  | reservedChannel (file : String)
  | duplicateChannel (id : String)
  | noBank
  | alreadyThere (path : Path)
  | unwritable (path : Path) (cause : DiskError)
  | macros (e : MacroDefinitionError)
  | parts (e : QuotaError)
  deriving DecidableEq, Repr

/-- The text of an error. -/
def IndexError.message : IndexError → String
  | missing path => "exam index not found at " ++ path.text
  | unreadable path cause => "failed to read exam index " ++ path.text ++ ": " ++ cause.message
  | notYaml path => "failed to parse YAML in " ++ path.text ++ ": not a single document"
  | notAMapping path => "exam index " ++ path.text ++ " is not a mapping"
  | missingField field => "exam index is missing required field '" ++ field ++ "'"
  | invalidField field fault =>
    "exam index field '" ++ field ++ "' is invalid: " ++ fault.reason
  | reservedChannel file =>
    "output '" ++ file ++ "' uses a reserved question field as channel id"
  | duplicateChannel id => "output channel '" ++ id ++ "' is declared twice"
  | noBank => "no question bank: set `bank` in the index, the config, or pass --bank"
  | alreadyThere path => path.text ++ " already exists, refusing to overwrite it"
  | unwritable path cause => "failed to write " ++ path.text ++ ": " ++ cause.message
  | macros e => "invalid macros: " ++ e.message
  | parts e => "invalid parts: " ++ e.message

end ExamPaper
