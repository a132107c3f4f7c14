import ExamPaper.File.Path
import ExamPaper.Ordered

/-!
# The files that a run can see

A disk holds directories and files under their locations, which are the names from the root down,
and has a working directory that relative paths start from. Reading and writing follow a path name
by name, so that every directory on the way has to be there. The system may refuse to write at a
location for reasons that are not on the disk: the place is protected, the device is full or broken.

Main statements: an entry that is put at a location is there (`entryAt?_insert_self`), and what is
at other locations stays (`entryAt?_insert_of_ne`).

Mirrors `read_to_string`, `write`, `create_dir_all`, `exists` and `is_dir` as the program uses them.
A write stores the whole text or leaves the file alone; one that stops halfway is left out. Links
between files are left out too.
-/

namespace ExamPaper

/-- The names that lead from the root to a place. -/
abbrev Location := List String

/-- What is at a location. -/
inductive Entry where
  | directory
  /-- A file with its text, or with bytes that are no text. -/
  | file (text : Option String)
  deriving DecidableEq, Repr

/-- Why a path cannot be read or written. -/
inductive DiskError where
  | missing
  | notADirectory
  | isADirectory
  | alreadyThere
  | nameTooLong
  /-- A path with a character NUL, which ends a name. -/
  | brokenName
  | notText
  /-- The system refuses to write, and says why. -/
  | refused (reason : String)
  deriving DecidableEq, Repr

/-- The text of an error. -/
def DiskError.message : DiskError → String
  | missing => "No such file or directory (os error 2)"
  | notADirectory => "Not a directory (os error 20)"
  | isADirectory => "Is a directory (os error 21)"
  | alreadyThere => "File exists (os error 17)"
  | nameTooLong => "File name too long (os error 36)"
  | brokenName => "file name contained an unexpected NUL byte"
  | notText => "stream did not contain valid UTF-8"
  | refused reason => reason

/-- Directories and files under their locations, in the order of the locations: a directory comes
before what is in it, and the names in a directory are in order. -/
structure Disk where
  entries : List (Location × Entry) := []
  /-- Where relative paths start. -/
  workingDirectory : Location := []
  /-- The locations at which the system refuses to write, with what it says. -/
  refusals : List (Location × String) := []
  deriving DecidableEq, Repr

namespace Disk

/-- What is at a location; the root is always there. -/
def entryAt? (d : Disk) : Location → Option Entry
  | [] => some .directory
  | l => d.entries.lookup l

/-- What the system says to an attempt to write at a location, if it refuses. -/
def refusal? (d : Disk) (l : Location) : Option String := d.refusals.lookup l

/-- The disk with an entry at a location, in place of what was there. -/
def insert (d : Disk) (l : Location) (e : Entry) : Disk :=
  { d with entries := Ordered.insert l e d.entries }

/-- The number of bytes that a name may have. -/
def nameLimit : Nat := 255

/-- The location that names lead to from another one. The directories on the way have to be
there, the location itself need not. -/
def walk (d : Disk) : Location → List String → Except DiskError Location
  | l, [] => .ok l
  | l, name :: names =>
    match d.entryAt? l with
    | none => .error .missing
    | some (.file _) => .error .notADirectory
    | some .directory =>
      if name = "" ∨ name = "." then walk d l names
      else if name = ".." then walk d l.dropLast names
      else if nameLimit < name.utf8ByteSize then .error .nameTooLong
      else walk d (l ++ [name]) names

/-- The names of a path. -/
def names (p : Path) : List String := p.segments.map String.ofList

/-- The number of bytes that a path may have. -/
def pathLimit : Nat := 4095

/-- Why a path leads nowhere, whatever is on the disk. -/
def fault? (p : Path) : Option DiskError :=
  if p.text.toList.contains '\x00' then some .brokenName
  else if p.text.isEmpty then some .missing
  else if pathLimit < p.text.utf8ByteSize then some .nameTooLong
  else none

/-- The location that a path leads to. -/
def locate (d : Disk) (p : Path) : Except DiskError Location :=
  match fault? p with
  | some e => .error e
  | none => d.walk (if p.isAbsolute then [] else d.workingDirectory) (names p)

/-- What a path leads to. -/
def find (d : Disk) (p : Path) : Except DiskError Entry :=
  match d.locate p with
  | .error e => .error e
  | .ok l =>
    match d.entryAt? l with
    | some entry => .ok entry
    | none => .error .missing

/-- Whether a path leads to something. -/
def contains (d : Disk) (p : Path) : Bool := (d.find p).isOk

/-- Whether a path leads to a directory. -/
def isDirectory (d : Disk) (p : Path) : Bool :=
  match d.find p with
  | .ok .directory => true
  | _ => false

/-- The text of the file that a path leads to. -/
def read (d : Disk) (p : Path) : Except DiskError String :=
  match d.find p with
  | .error e => .error e
  | .ok .directory => .error .isADirectory
  | .ok (.file none) => .error .notText
  | .ok (.file (some text)) => .ok text

/-- The path without the slashes at its end. -/
def withoutFinalSlashes (p : Path) : Path :=
  ⟨String.ofList (p.text.toList.reverse.dropWhile (· == '/')).reverse⟩

/-- The location that a path leads to without the slashes at its end. -/
def locateEntry (d : Disk) (p : Path) : Except DiskError Location :=
  match fault? p with
  | some e => .error e
  | none => d.locate (withoutFinalSlashes p)

/-- The location of the file that writing to a path puts there. -/
def target (d : Disk) (p : Path) : Except DiskError Location :=
  match d.locateEntry p with
  | .error e => .error e
  | .ok l =>
    if p.text.toList.getLast? = some '/' then .error .isADirectory
    else match d.entryAt? l with
      | some .directory => .error .isADirectory
      | _ => .ok l

/-- Puts an entry at a location, unless the system refuses. -/
def put (d : Disk) (l : Location) (e : Entry) : Except DiskError Disk :=
  match d.refusal? l with
  | some reason => .error (.refused reason)
  | none => .ok (d.insert l e)

/-- Writes a text to a file, in place of what was in it. A text is written as a whole or not at
all. -/
def write (d : Disk) (p : Path) (text : String) : Except DiskError Disk :=
  match d.target p with
  | .error e => .error e
  | .ok l => d.put l (.file (some text))

/-- Makes a directory. -/
def makeDirectory (d : Disk) (p : Path) : Except DiskError Disk :=
  match d.locateEntry p with
  | .error e => .error e
  | .ok l => if (d.entryAt? l).isSome then .error .alreadyThere else d.put l .directory

/-- A disk after some work, and whether the work failed. -/
structure Outcome where
  result : Except DiskError Unit
  disk : Disk

/-- Makes a directory and those on the way to it, where there is none yet, at most the given number
of them. -/
def makeDirectoriesUpTo : Nat → Disk → Path → Outcome
  | 0, d, _ => ⟨.error .missing, d⟩
  | n + 1, d, p =>
    let make (d : Disk) (otherwise : DiskError → Outcome) : Outcome :=
      match d.makeDirectory p with
      | .ok d => ⟨.ok (), d⟩
      | .error e => otherwise e
    let orThere (d : Disk) (e : DiskError) : Outcome :=
      if d.isDirectory p then ⟨.ok (), d⟩ else ⟨.error e, d⟩
    if p.text.isEmpty then ⟨.ok (), d⟩
    else make d fun e =>
      match e, p.parent? with
      | .missing, some parent =>
        match makeDirectoriesUpTo n d parent with
        | ⟨.ok (), d⟩ => make d (orThere d)
        | failed => failed
      | e, _ => orThere d e

/-- Makes a directory and those on the way to it, where there is none yet. -/
def makeDirectories (d : Disk) (p : Path) : Outcome :=
  makeDirectoriesUpTo (p.text.length + 2) d p

/-- What a walk through a directory comes to. -/
inductive Found where
  /-- A file with its text, or with bytes that are no text. -/
  | file (text : Option String)
  /-- A directory whose path leads nowhere. -/
  | closedDirectory
  deriving DecidableEq, Repr

/-- What an entry is to a walk that comes to it on a path: a file only where the path leads to it,
and a directory only where it does not. -/
def found? (p : Path) : Entry → Option (Path × Found)
  | .directory => if (fault? p).isSome then some (p, .closedDirectory) else none
  | .file text => if (fault? p).isSome then none else some (p, .file text)

/-- What a walk comes to at a path and below it, in the order of the locations, each with the path
that leads to it. -/
def filesBelow (d : Disk) (p : Path) : List (Path × Found) :=
  match d.locate p with
  | .error _ => []
  | .ok l => d.entries.filterMap fun (place, entry) =>
    if l.isPrefixOf place then
      found? ((place.drop l.length).foldl (fun p name => p.join ⟨name⟩) p) entry
    else none

/-- What can be put at a location is there afterwards. -/
theorem put_eq_ok_iff {d d' : Disk} {l : Location} {e : Entry} :
    d.put l e = .ok d' ↔ d.refusal? l = none ∧ d' = d.insert l e := by
  unfold put
  cases d.refusal? l with
  | some reason => simp
  | none => simp [eq_comm]

@[simp] theorem entries_insert (d : Disk) (l : Location) (e : Entry) :
    (d.insert l e).entries = Ordered.insert l e d.entries := rfl

theorem entryAt?_insert_self (d : Disk) {l : Location} (h : l ≠ []) (e : Entry) :
    (d.insert l e).entryAt? l = some e := by
  cases l with
  | nil => exact absurd rfl h
  | cons name names => exact Ordered.lookup_insert_self (name :: names) e d.entries

theorem entryAt?_insert_of_ne (d : Disk) {l other : Location} (h : other ≠ l) (e : Entry) :
    (d.insert l e).entryAt? other = d.entryAt? other := by
  cases other with
  | nil => rfl
  | cons name names => exact Ordered.lookup_insert_of_ne h e d.entries

end Disk

end ExamPaper
