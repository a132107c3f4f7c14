import ExamPaper.File.Disk

/-!
# Output files

The files of an edition lie beside the index and are named for the index, the channel and the
edition: for the index `exams/final.yaml` and the file `notes.md`, edition 0 is
`exams/final_notes.md` and edition 3 is `exams/final_notes_3.md`. A run without an edition of its
own takes the first one of which no file is there.

Mirrors `output_paths`, `first_free_edition` and `write_outputs`. The search for a free edition
there has no end; here it is over as many editions as can be taken (`firstFree`), which is enough on
every disk.
-/

namespace ExamPaper

/-- A file that cannot be written. -/
structure OutputError where
  path : Path
  cause : DiskError
  deriving DecidableEq, Repr

/-- The text of an error. -/
def OutputError.message (e : OutputError) : String :=
  "failed to write " ++ e.path.text ++ ": " ++ e.cause.message

namespace Outputs

/-- The name of the file of an edition, for an index with the name `base`. -/
def name (base : String) (edition : Nat) (file : Path) : String :=
  let number := if edition = 0 then "" else "_" ++ Nat.repr edition
  let extension := match file.extension? with
    | some extension => "." ++ extension
    | none => ""
  base ++ "_" ++ file.stem?.getD "" ++ number ++ extension

/-- The path of the file of an edition. -/
def path (index : Path) (edition : Nat) (file : String) : Path :=
  index.directory.join ⟨name (index.stem?.getD "") edition ⟨file⟩⟩

/-- The paths of the files of an edition, in the order of the files. -/
def paths (index : Path) (files : List String) (edition : Nat) : List Path :=
  files.map (path index edition)

/-- Whether no file of an edition is there. -/
def isFree (disk : Disk) (index : Path) (files : List String) (edition : Nat) : Bool :=
  !(paths index files edition).any disk.contains

/-- The first free edition from a given one on, among the given number of editions. -/
def firstFreeFrom (disk : Disk) (index : Path) (files : List String) : Nat → Nat → Nat
  | 0, edition => edition
  | n + 1, edition =>
    if isFree disk index files edition then edition
    else firstFreeFrom disk index files n (edition + 1)

/-- The first edition of which no file is there. No two editions with a number share a file, so that
besides the first edition no more of them are taken than there are entries on the disk. -/
def firstFree (disk : Disk) (index : Path) (files : List String) : Nat :=
  firstFreeFrom disk index files (disk.entries.length + 1) 0

/-- A disk after files were written, and whether that failed. -/
structure Written where
  result : Except OutputError Unit
  disk : Disk

/-- Writes texts to their paths, one after another, up to the first failure. -/
def write (disk : Disk) : List Path → List String → Written
  | path :: paths, text :: texts =>
    match disk.write path text with
    | .error e => ⟨.error ⟨path, e⟩, disk⟩
    | .ok disk => write disk paths texts
  | _, _ => ⟨.ok (), disk⟩

end Outputs

end ExamPaper
