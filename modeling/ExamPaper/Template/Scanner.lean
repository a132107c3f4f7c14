import ExamPaper.Text.Pieces

/-!
# Finding directives

A directive is `((name,arg,...))`. A text is read from the left: a backslash takes the character
after it along, so that neither acts as a marker; `((` opens a directive; `))` closes the innermost
open one and is plain text when none is open. The first directive of a text is therefore the
innermost one that is closed first.

A scanner is a text with a reading position in it. What has been read is kept in layers, one for the
text before all open markers and one for the text after each of them, so that a directive is at hand
when it is closed: it is the innermost layer. Putting a replacement in front of what is left to read
continues at the place where the directive stood, without reading again what is before it.

Mirrors `Scanner` with `next_directive`, `Span` and `locate`. There a scanner is an offset into a
text and a stack of offsets, and the text is rewritten between two calls; here the text is part of
the scanner, cut where the offsets point, and `span` counts the bytes again.
`Proofs.Template.Offsets` follows the offsets themselves.
-/

namespace ExamPaper

namespace Template

/-- A text with a reading position. What has been read is kept with its latest character first. -/
structure Scanner where
  /-- What has been read before the first open marker. -/
  outer : List Char := []
  /-- What has been read after each open marker, the innermost first. -/
  layers : List (List Char) := []
  /-- What is left to read. -/
  rest : List Char
  deriving DecidableEq, Repr

/-- What comes next in a text. -/
inductive Finding where
  /-- A directive: the text between its markers, and the scanner without it. -/
  | directive (body : List Char) (scanner : Scanner)
  /-- Nothing more: the whole text. -/
  | finished (text : List Char)
  /-- A marker that is never closed: the text from it on. -/
  | unterminated (text : List Char)
  deriving DecidableEq, Repr

namespace Scanner

/-- A scanner at the start of a text. -/
def ofText (text : List Char) : Scanner := { rest := text }

/-- The markers and layers that have been read, from the outermost on. -/
def openText : List (List Char) → List Char
  | [] => []
  | layer :: layers => openText layers ++ '(' :: '(' :: layer.reverse

/-- What has been read, in the order of the text. -/
def readText (s : Scanner) : List Char := s.outer.reverse ++ openText s.layers

/-- The whole text. -/
def text (s : Scanner) : List Char := s.readText ++ s.rest

/-- The size of what has been read, in UTF-8. -/
def position (s : Scanner) : Nat := Text.utf8Size s.readText

/-- The sizes of what precedes each open marker, the innermost first. -/
def openPositions (outer : List Char) : List (List Char) → List Nat
  | [] => []
  | _ :: layers =>
    Text.utf8Size (outer.reverse ++ openText layers) :: openPositions outer layers

/-- Reads from a position with the given layers to the end of the next directive or of the text. -/
def scan (outer : List Char) (layers : List (List Char)) : List Char → Finding
  | [] =>
    match layers with
    | [] => .finished outer.reverse
    | layer :: _ => .unterminated ('(' :: '(' :: layer.reverse)
  | '\\' :: c :: rest =>
    match layers with
    | [] => scan (c :: '\\' :: outer) [] rest
    | layer :: layers => scan outer ((c :: '\\' :: layer) :: layers) rest
  | '(' :: '(' :: rest => scan outer ([] :: layers) rest
  | ')' :: ')' :: rest =>
    match layers with
    | [] => scan (')' :: ')' :: outer) [] rest
    | layer :: layers => .directive layer.reverse { outer, layers, rest }
  | c :: rest =>
    match layers with
    | [] => scan (c :: outer) [] rest
    | layer :: layers => scan outer ((c :: layer) :: layers) rest

/-- The next directive. -/
def next (s : Scanner) : Finding := scan s.outer s.layers s.rest

/-- The scanner with a text put in front of what is left to read. -/
def resume (s : Scanner) (replacement : List Char) : Scanner :=
  { s with rest := replacement ++ s.rest }

/-- The bytes that a directive takes up in its text: the first, and the one after the last. -/
structure Span where
  start : Nat
  stop : Nat
  deriving DecidableEq, Repr

/-- The bytes of a directive that was just taken out, its markers included. -/
def span (s : Scanner) (body : List Char) : Span :=
  { start := s.position, stop := s.position + Text.utf8Size body + 4 }

/-- What follows the next line break, the end of the text if there is none. -/
def afterLine (rest : List Char) : List Char := (rest.dropWhile (· ≠ '\n')).drop 1

/-- The scanner without what is left to read of the line, its line break included. -/
def dropLine (s : Scanner) : Scanner := { s with rest := afterLine s.rest }

end Scanner

/-- The text before the first directive, the text between its markers, and the text after it. -/
structure Located where
  before : List Char
  body : List Char
  after : List Char
  deriving DecidableEq, Repr

/-- The first directive of a text; none if there is none, and the text from the marker on if one is
never closed. -/
def locate (text : List Char) : Except (List Char) (Option Located) :=
  match (Scanner.ofText text).next with
  | .directive body s => .ok (some { before := s.readText, body, after := s.rest })
  | .finished _ => .ok none
  | .unterminated text => .error text

end Template

end ExamPaper
