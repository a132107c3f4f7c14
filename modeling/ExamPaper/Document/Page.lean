import ExamPaper.Document.Style

/-!
# The page

A text in the making. What is put on a page next depends on what is at its end: a word is divided
from the one before it by a space, and an item of a collection starts a line of its own, unless the
line holds nothing but the signs of the collections around it.
-/

namespace ExamPaper

namespace Document

/-- A text in the making. -/
structure Page where
  /-- The characters so far, the latest first. -/
  written : List Char := []
  /-- How many characters the last line has. -/
  column : Nat := 0
  /-- Whether the next word need not be divided from what is there. -/
  isDivided : Bool := true
  /-- Whether the last line has nothing but indentation and signs. -/
  isFresh : Bool := true
  deriving Repr

namespace Page

/-- The text of a page. -/
def text (p : Page) : String := String.ofList p.written.reverse

/-- The page with a line break. -/
def breakLine (p : Page) (c : Char) : Page := { written := c :: p.written }

/-- The page with characters right after its end, none of which is a line break. -/
def attach (p : Page) (cs : List Char) : Page :=
  { written := cs.reverse ++ p.written
    column := p.column + cs.length
    isDivided := false
    isFresh := false }

/-- The page with a space at its end. -/
def space (p : Page) : Page := { p with written := ' ' :: p.written, column := p.column + 1 }

/-- The page with a word at its end. -/
def word (p : Page) (cs : List Char) : Page := (if p.isDivided then p else p.space).attach cs

/-- The page with the sign of an item, of a key or of a value, after which another one may stand. -/
def sign (p : Page) (c : Char) : Page := { p.word [c] with isFresh := p.isFresh }

/-- The page with an indentation at its end, in a new line unless the last one is fresh and not too
long. -/
def indent (p : Page) (width : Nat) : Page :=
  let p :=
    if p.isFresh && (p.column < width || (p.column = width && p.isDivided)) then p
    else p.breakLine '\n'
  { written := List.replicate (width - p.column) ' ' ++ p.written, column := width }

/-- The page with the lines of a text at its end, each with an indentation before it, except for
empty ones and, unless a line break comes before it, the first. -/
def lines (width : Nat) (afterBreak : Bool) : List Char → Page → Page
  | [], p => p
  | c :: cs, p =>
    if isBreak c then lines width true cs (p.breakLine c)
    else lines width false cs ((if afterBreak then p.indent width else p).attach [c])

/-- The page with a text at its end, its further lines with an indentation. -/
def scalar (p : Page) (width : Nat) (cs : List Char) : Page :=
  match styleOf cs with
  | .plain => p.word cs
  | .double => p.word (doubleQuoted cs)
  | .literal => lines width true cs ((p.word (literalMark cs)).breakLine '\n')
  | .single =>
    let p := lines width false (singleQuoted cs) (p.word ['\''])
    (if cs.getLast?.any isBreak then p.indent width else p).attach ['\'']

end Page

end Document

end ExamPaper
