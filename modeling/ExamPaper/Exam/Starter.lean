import ExamPaper.Exam.Error

/-!
# The starter index

An index to begin with, which shows what an index can say. It never takes the place of a file.

Mirrors `write_starter`.
-/

namespace ExamPaper

namespace Starter

/-- The text of the starter index. -/
def text : String :=
"# Exam index. `randexam check` shows how `parts` resolves against the bank.
title: Final exam
difficulty: 10
tolerance: 0.5
tries: 1000
bank: questions
files: [description.md, notes.md]
macros:
  - ((HEADER)): \"((COUNTER)). \"
  - ((POINTS,N)): \"(N points)\"
begin_description: |
  # ((title))
begin_notes: |
  # ((title)): notes
end_description: |
  Generated on ((DATE)).
parts:
  - intro
  - all: '+'
"

/-- A disk after the starter index was written, and whether that failed. -/
structure Written where
  result : Except IndexError Unit
  disk : Disk

/-- Makes the directory of a file. -/
def makeDirectory (disk : Disk) (file : Path) : Written :=
  let directory := file.directory
  match disk.makeDirectories directory with
  | ⟨.error e, disk⟩ => ⟨.error (.unwritable directory e), disk⟩
  | ⟨.ok (), disk⟩ => ⟨.ok (), disk⟩

/-- Writes the starter index to a path where nothing is yet, with the directories on the way. -/
def write (disk : Disk) (path : Path) : Written :=
  if disk.contains path then ⟨.error (.alreadyThere path), disk⟩
  else match makeDirectory disk path with
    | ⟨.error e, disk⟩ => ⟨.error e, disk⟩
    | ⟨.ok (), disk⟩ =>
      match disk.write path text with
      | .error e => ⟨.error (.unwritable path e), disk⟩
      | .ok disk => ⟨.ok (), disk⟩

end Starter

end ExamPaper
