import ExamPaper.Text.Pieces

/-!
# Positions in a document

A cursor is what is left to read of a text, with the place where it starts: how many bytes come
before it, its line and its column. The text
has line feeds for the other line breaks, except for the line and paragraph separators, which are
kept.
-/

namespace ExamPaper

namespace Document

/-- What is left to read of a text, and where it starts. -/
structure Cursor where
  rest : List Char
  /-- How many bytes come before it. -/
  index : Nat := 0
  line : Nat := 0
  column : Nat := 0
  deriving Repr

/-- A line break, once other breaks have become line feeds. -/
def isLineBreak (c : Char) : Bool := c == '\n' || c.toNat == 0x2028 || c.toNat == 0x2029

/-- A space or a tab. -/
def isSpace (c : Char) : Bool := c == ' ' || c == '\t'

/-- A space, a tab, a line break or, if there is no character, the end of the text. -/
def isGapOrEnd : Option Char → Bool
  | none => true
  | some c => isSpace c || isLineBreak c

/-- A character of a name. -/
def isNameChar (c : Char) : Bool := c.isAlphanum || c == '_' || c == '-'

namespace Cursor

/-- The next character. -/
def head? (c : Cursor) : Option Char := c.rest.head?

/-- Whether the next character is the given one. -/
def startsWith (c : Cursor) (x : Char) : Bool := c.rest.head? == some x

/-- The number of bytes before a place, from that before some characters and the characters. -/
def indexAfter (index : Nat) (cs : List Char) : Nat :=
  cs.foldl (fun index x => index + x.utf8Size) index

/-- The cursor after a number of characters of its line. -/
def skip (c : Cursor) (n : Nat) : Cursor :=
  { c with
    rest := c.rest.drop n
    index := indexAfter c.index (c.rest.take n)
    column := c.column + n }

/-- The cursor after a line break. -/
def skipBreak (c : Cursor) : Cursor :=
  { rest := c.rest.drop 1
    index := indexAfter c.index (c.rest.take 1)
    line := c.line + 1
    column := 0 }

/-- The characters up to the first that fails a test, none of which is a line break, and the cursor
after them. -/
def span (c : Cursor) (p : Char → Bool) : List Char × Cursor :=
  let run := c.rest.takeWhile p
  (run, c.skip run.length)

/-- The cursor after the spaces and tabs that come next. -/
def skipSpaces (c : Cursor) : Cursor := (c.span isSpace).2

/-- The cursor at the end of the line, if nothing but a comment comes before it. -/
def skipComment? (c : Cursor) : Option Cursor :=
  let c := c.skipSpaces
  let c := if c.startsWith '#' then (c.span fun x => !isLineBreak x).2 else c
  match c.head? with
  | none => some c
  | some x => if isLineBreak x then some c else none

/-- Whether one of the two marks between documents comes next, at the start of a line. -/
def atDocumentMark (c : Cursor) : Bool :=
  c.column == 0 && (c.rest.take 3 == ['-', '-', '-'] || c.rest.take 3 == ['.', '.', '.']) &&
    isGapOrEnd c.rest[3]?

end Cursor

/-- Puts line feeds in place of other line breaks, where `done` is the text so far, latest character
first. -/
def normalizeOnto (done : List Char) : List Char → List Char
  | '\r' :: '\n' :: cs => normalizeOnto ('\n' :: done) cs
  | c :: cs => normalizeOnto ((if c == '\r' || c.toNat == 0x85 then '\n' else c) :: done) cs
  | [] => done.reverse

/-- The text with line feeds for its line breaks; the line and paragraph separators stay. -/
def normalizeBreaks (cs : List Char) : List Char := normalizeOnto [] cs

/-- A character that may stand in a document. -/
def isAllowed (c : Char) : Bool :=
  let n := c.toNat
  n == 9 || n == 10 || n == 13 || (0x20 ≤ n && n ≤ 0x7E) || n == 0x85 ||
    (0xA0 ≤ n && n ≤ 0xFFFD) || 0x10000 ≤ n

/-! ## Pieces

A text is read piece by piece. A character that must not stand in a document makes its piece
unreadable, but not those before it. -/

/-- The number of bytes of a piece, which does not end within a character. -/
def pieceSize : Nat := 16384

/-- The pieces before the first that is unreadable, latest character first, and whether there is
such a piece. The piece so far has a number of bytes. -/
def piecesOnto (done piece : List Char) (size : Nat) : List Char → List Char × Bool
  | [] => (piece ++ done, false)
  | c :: cs =>
    if pieceSize < size + c.utf8Size then
      if isAllowed c then piecesOnto (piece ++ done) [c] c.utf8Size cs else (piece ++ done, true)
    else if isAllowed c then piecesOnto done (c :: piece) (size + c.utf8Size) cs
    else (done, true)

/-- What can be read of a text, and whether there is more. -/
def readablePieces (cs : List Char) : List Char × Bool :=
  let (done, isCut) := piecesOnto [] [] 0 cs
  (done.reverse, isCut)

/-! ## Gaps

Between two runs of characters of a scalar that is not a block there may be spaces, which stay, or
line breaks with spaces around them, which are folded: a single line feed becomes a space, and of
several the first is dropped. -/

/-- What has been read of a gap, the latest characters first. -/
structure Gap where
  spaces : List Char := []
  /-- Whether a line break has been read. -/
  broken : Bool := false
  /-- The first line break, unless a backslash escapes it. -/
  first : Option Char := none
  /-- The other line breaks. -/
  more : List Char := []

namespace Gap

/-- What a gap stands for. -/
def text (g : Gap) : List Char :=
  if g.broken then
    match g.first with
    | some '\n' => if g.more.isEmpty then [' '] else g.more.reverse
    | some c => c :: g.more.reverse
    | none => g.more.reverse
  else g.spaces.reverse

/-- Reads a gap, at most the given number of characters. A tab after a line break and before the
column `tabLimit` is an error. -/
def read (tabLimit : Int) : Nat → Gap → Cursor → Option (Gap × Cursor)
  | 0, g, c => some (g, c)
  | n + 1, g, c =>
    match c.head? with
    | none => some (g, c)
    | some x =>
      if isSpace x then
        if g.broken && x == '\t' && (c.column : Int) < tabLimit then none
        else if g.broken then read tabLimit n g (c.skip 1)
        else read tabLimit n { g with spaces := x :: g.spaces } (c.skip 1)
      else if isLineBreak x then
        if g.broken then read tabLimit n { g with more := x :: g.more } c.skipBreak
        else read tabLimit n { g with spaces := [], broken := true, first := some x } c.skipBreak
      else some (g, c)

end Gap

end Document

end ExamPaper
