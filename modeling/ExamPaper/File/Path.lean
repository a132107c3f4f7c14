import ExamPaper.Text.Pieces

/-!
# Paths

A path is a text, kept as it was built. Its components are what lies between the slashes, without
the empty ones and without dots, a dot at the very start of a relative path excepted. The name of a
path is its last component, if that is neither a dot nor two; stem and extension are its parts
before and after its last dot, a dot at the start of the name being part of the stem.

Mirrors `components`, `parent`, `file_stem`, `extension` and `join` of a path.
-/

namespace ExamPaper

/-- A path, as it was written. -/
structure Path where
  text : String
  deriving DecidableEq, Repr, Inhabited

namespace Path

/-- What lies between the slashes of a path. -/
def segments (p : Path) : List (List Char) := Text.splitAtChar '/' p.text.toList

/-- A path that starts at the root. -/
def isAbsolute (p : Path) : Bool := p.text.toList.head? == some '/'

/-- Whether a segment that follows others names nothing. -/
def isFiller (segment : List Char) : Bool := segment == [] || segment == ['.']

/-- Segments, last first, from the last one on that is a component, or the first of all. -/
def dropFiller : List (List Char) → List (List Char)
  | [] => []
  | [first] => [first]
  | segment :: rest => if isFiller segment then dropFiller rest else segment :: rest

/-- The components of a path; the root is an empty component at the start. -/
def components (p : Path) : List (List Char) :=
  match p.segments with
  | [] => []
  | [[]] => []
  | first :: rest => first :: rest.filter fun segment => !isFiller segment

/-- The last component, if it is neither the root nor a dot nor two dots. -/
def nameChars? (p : Path) : Option (List Char) :=
  match dropFiller p.segments.reverse with
  | [] => none
  | segment :: _ =>
    if segment == [] || segment == ['.'] || segment == ['.', '.'] then none else some segment

/-- A path from its segments, last first; the root alone is a slash. -/
def ofSegments (rev : List (List Char)) : Path :=
  match rev with
  | [[]] => ⟨"/"⟩
  | rev => ⟨String.ofList (Text.join ['/'] rev.reverse)⟩

/-- The path without its last component; the root and the empty path have no parent. -/
def parent? (p : Path) : Option Path :=
  match dropFiller p.segments.reverse with
  | [] | [[]] => none
  | [_] => some ⟨""⟩
  | _ :: rest => some (ofSegments (dropFiller rest))

/-- The path of the directory that holds a path, the empty path if there is none. -/
def directory (p : Path) : Path := p.parent?.getD ⟨""⟩

/-- A name cut at its last dot that is not at its start: the parts before and after it. -/
def splitName (name : List Char) : List Char × Option (List Char) :=
  let after := (name.reverse.takeWhile (· ≠ '.')).reverse
  let before := (name.reverse.dropWhile (· ≠ '.')).drop 1 |>.reverse
  if before.isEmpty then (name, none) else (before, some after)

/-- The name without its extension. -/
def stem? (p : Path) : Option String := p.nameChars?.map fun n => String.ofList (splitName n).1

/-- What follows the last dot of the name. -/
def extension? (p : Path) : Option String :=
  (p.nameChars?.bind fun n => (splitName n).2).map String.ofList

/-- The path `q` seen from the directory `p`; an absolute path stays as it is. -/
def join (p q : Path) : Path :=
  if q.isAbsolute || p.text.isEmpty then q
  else if p.text.toList.getLast? == some '/' then ⟨p.text ++ q.text⟩
  else ⟨p.text ++ "/" ++ q.text⟩

end Path

end ExamPaper
