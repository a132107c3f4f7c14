import ExamPaper.Text.Pieces

/-!
# Arguments and escapes

The text between the markers of a directive is cut at its commas, except those that a backslash
escapes: `arguments` cuts at every comma and joins a piece that ends in an odd number of backslashes
to the one after it. Escapes stay in the arguments; `unescape` removes them from a finished text.

Mirrors `split_args`, `ends_with_escape` and `unescape`, on characters where they count bytes; what
they look for has one byte.
-/

namespace ExamPaper

namespace Template

/-- Whether a text ends in an odd number of backslashes. -/
def endsInEscape (cs : List Char) : Bool :=
  (cs.reverse.takeWhile (· = '\\')).length % 2 == 1

/-- Pieces between commas with those joined that an escaped comma separates, where `held` is a
piece that waits for the one after it. -/
def joinEscaped : (held : Option (List Char)) → List (List Char) → List (List Char)
  | none, [] => []
  | some held, [] => [held]
  | none, piece :: pieces =>
    if endsInEscape piece then joinEscaped (some piece) pieces
    else piece :: joinEscaped none pieces
  | some held, piece :: pieces =>
    if endsInEscape (held ++ ',' :: piece) then joinEscaped (some (held ++ ',' :: piece)) pieces
    else (held ++ ',' :: piece) :: joinEscaped none pieces

/-- The pieces of a text between the commas that are not escaped. -/
def arguments (body : List Char) : List (List Char) :=
  joinEscaped none (Text.splitAtChar ',' body)

/-- A character that a backslash escapes. -/
def isEscapable (c : Char) : Bool := c == '\\' || c == '(' || c == ')' || c == ','

/-- Removes the backslash of every escape, where `done` is the text so far, latest character
first. -/
def unescapeOnto (done : List Char) : List Char → List Char
  | [] => done.reverse
  | '\\' :: c :: cs =>
    if isEscapable c then unescapeOnto (c :: done) cs else unescapeOnto (c :: '\\' :: done) cs
  | c :: cs => unescapeOnto (c :: done) cs

/-- The text without the backslash of every escape; other backslashes stay. -/
def unescape (cs : List Char) : List Char := unescapeOnto [] cs

/-- The text with a backslash before every character that one escapes. -/
def escape (cs : List Char) : List Char :=
  cs.flatMap fun c => if isEscapable c then ['\\', c] else [c]

end Template

end ExamPaper
