import ExamPaper.Configuration.Environment
import ExamPaper.Document.Reading
import ExamPaper.File.Disk
import ExamPaper.Toml.Reading

/-!
# Readers

What a run leaves to others: to read the two formats of its files, to fill in the variables of a
path, and to list what is in a directory. Whatever reads a file is written over the class `Readers`,
and no law about runs asks anything of them, so it holds for all readers. The readers of this
library are the instance at the end.
-/

namespace ExamPaper

/-- What a run relies on to read files, paths and directories. -/
class Readers where
  /-- The value of a YAML text that is a single document. -/
  document? : String → Option Value
  /-- The values of the documents of a YAML text up to the first that cannot be read. -/
  documents : String → List (Option Value)
  /-- The entries of a TOML text. -/
  table? : String → Option Toml.Entries
  /-- A path with the variables of an environment filled in. -/
  expand? : Environment → String → Option Path
  /-- What a walk comes to at a path and below it. -/
  filesBelow : Disk → Path → List (Path × Disk.Found)

instance : Readers where
  document? := Document.parse?
  documents := Document.values
  table? := Toml.parse?
  expand? := Environment.expand?
  filesBelow := Disk.filesBelow

end ExamPaper
