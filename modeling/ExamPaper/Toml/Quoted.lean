import ExamPaper.Document.Scalar

/-!
# Texts in TOML

A text stands between single or double quotes, or between three of either, and then it may go on
over line breaks. Backslashes escape within double quotes only. A line break right after three
quotes is not part of the text, and up to two quotes may stand before the three at the end.

Every function takes what is left of the document and returns what is left after it.
-/

namespace ExamPaper

namespace Toml

/-- A character that may stand in comments and texts: no control character but a tab. -/
def isVisible (c : Char) : Bool := c == '\t' || (0x20 ≤ c.toNat && c.toNat != 0x7F)

/-- A space or a tab. -/
def isBlank (c : Char) : Bool := c == ' ' || c == '\t'

/-- What follows a line break, if one comes next. -/
def dropNewline? : List Char → Option (List Char)
  | '\n' :: cs => some cs
  | '\r' :: '\n' :: cs => some cs
  | _ => none

/-- The character whose number is written with some hexadecimal digits. -/
def hexadecimal? (width : Nat) (cs : List Char) : Option (Char × List Char) :=
  let digits := cs.take width
  if digits.length < width then none
  else match Document.inBase? 16 digits with
    | some n => if n.isValidChar then some (Char.ofNat n, cs.drop width) else none
    | none => none

/-- The character that an escape denotes, its backslash taken off. -/
def escape? : List Char → Option (Char × List Char)
  | [] => none
  | c :: cs =>
    match c with
    | 'b' => some (Char.ofNat 8, cs)
    | 't' => some ('\t', cs)
    | 'n' => some ('\n', cs)
    | 'f' => some (Char.ofNat 12, cs)
    | 'r' => some ('\r', cs)
    | 'e' => some (Char.ofNat 27, cs)
    | '"' => some ('"', cs)
    | '\\' => some ('\\', cs)
    | 'x' => hexadecimal? 2 cs
    | 'u' => hexadecimal? 4 cs
    | 'U' => hexadecimal? 8 cs
    | _ => none

/-- What follows the blanks and line breaks that come next. -/
def dropGap : List Char → List Char
  | '\r' :: '\n' :: cs => dropGap cs
  | c :: cs => if isBlank c || c == '\n' then dropGap cs else c :: cs
  | [] => []

/-- What follows a backslash at the end of a line: the next line that is not empty, without the
blanks at its start. -/
def dropJoint? (cs : List Char) : Option (List Char) :=
  (dropNewline? (cs.dropWhile isBlank)).map dropGap

/-- The rest of a text on one line after `done`, which has its latest character first. -/
def lineText (quote : Char) : Nat → List Char → List Char → Option (List Char × List Char)
  | 0, _, _ => none
  | _, _, [] => none
  | n + 1, done, c :: cs =>
    if c == quote then some (done.reverse, cs)
    else if c == '\\' && quote == '"' then
      (escape? cs).bind fun (x, cs) => lineText quote n (x :: done) cs
    else if isVisible c then lineText quote n (c :: done) cs
    else none

/-- The rest of a text on several lines after `done`, which has its latest character first. -/
def blockText (quote : Char) : Nat → List Char → List Char → Option (List Char × List Char)
  | 0, _, _ => none
  | _, _, [] => none
  | n + 1, done, c :: cs =>
    if c == quote then
      let quotes := ((c :: cs).take 5).takeWhile (· == quote)
      if quotes.length < 3 then blockText quote n (c :: done) cs
      else some ((quotes.drop 3 ++ done).reverse, (c :: cs).drop quotes.length)
    else if c == '\\' && quote == '"' then
      match dropJoint? cs with
      | some cs => blockText quote n done cs
      | none => (escape? cs).bind fun (x, cs) => blockText quote n (x :: done) cs
    else match dropNewline? (c :: cs) with
      | some cs => blockText quote n ('\n' :: done) cs
      | none => if isVisible c then blockText quote n (c :: done) cs else none

/-- The text that begins with the given quote, which is taken off. -/
def quotedLine (quote : Char) (cs : List Char) : Option (String × List Char) :=
  (lineText quote (cs.length + 1) [] cs).map fun (text, cs) => (String.ofList text, cs)

/-- The text that begins with the given quote, or with three of them; one is taken off. -/
def quoted (quote : Char) (cs : List Char) : Option (String × List Char) :=
  if cs.take 2 = [quote, quote] then
    let cs := cs.drop 2
    let cs := (dropNewline? cs).getD cs
    (blockText quote (cs.length + 1) [] cs).map fun (text, cs) => (String.ofList text, cs)
  else quotedLine quote cs

end Toml

end ExamPaper
