import ExamPaper.Toml.Quoted
import ExamPaper.Toml.Scalar
import ExamPaper.Toml.Table

/-!
# Reading TOML

A document is a sequence of lines: headers in brackets, which open a table, and keys with values,
which go to the table opened last. Lists and tables in braces may go on over several lines, and lie
at most eighty deep within each other.

Mirrors what `load` asks of its reader of TOML. It takes it as one of the `Readers`; this module and
those it imports are the reader that is run.
-/

namespace ExamPaper

namespace Toml

/-- A character of a key without quotes. -/
def isBareChar (c : Char) : Bool := c.isAlphanum || c == '_' || c == '-'

/-- What follows the comment that may come next; a comment ends before the line break. -/
def dropComment : List Char → List Char
  | '#' :: cs => cs.dropWhile isVisible
  | cs => cs

/-- What follows blanks and a comment. -/
def dropToEnd (cs : List Char) : List Char := dropComment (cs.dropWhile isBlank)

/-- What follows blanks, comments and line breaks, at most the given number of lines of them. -/
def dropLines : Nat → List Char → List Char
  | 0, cs => cs
  | n + 1, cs =>
    match dropNewline? (dropToEnd cs) with
    | some cs => dropLines n cs
    | none => dropToEnd cs

/-- What follows all blanks, comments and line breaks that come next. -/
def dropAllLines (cs : List Char) : List Char := dropLines (cs.length + 1) cs

/-- A key without dots. -/
def simpleKey : List Char → Option (String × List Char)
  | '"' :: cs => quotedLine '"' cs
  | '\'' :: cs => quotedLine '\'' cs
  | cs =>
    let bare := cs.takeWhile isBareChar
    if bare.isEmpty then none else some (String.ofList bare, cs.dropWhile isBareChar)

/-- A key, whose parts stand between dots; there may be blanks around each. -/
def key : Nat → List Char → Option (List String × List Char)
  | 0, _ => none
  | n + 1, cs =>
    (simpleKey (cs.dropWhile isBlank)).bind fun (name, cs) =>
      match cs.dropWhile isBlank with
      | '.' :: cs => (key n cs).map fun (names, cs) => (name :: names, cs)
      | cs => some ([name], cs)

/-- A character of a value without quotes. -/
def isScalarChar (c : Char) : Bool :=
  c.isAlphanum || c == '+' || c == '-' || c == '_' || c == '.' || c == ':'

/-- The characters of a value without quotes. A space between a date and a digit belongs to it. -/
def scalarRun (cs : List Char) : List Char :=
  let run := cs.takeWhile isScalarChar
  match cs.dropWhile isScalarChar with
  | ' ' :: c :: rest =>
    if isDate run && c.isDigit then run ++ ' ' :: (c :: rest).takeWhile isScalarChar else run
  | _ => run

/-- A value without quotes. -/
def scalarValue (cs : List Char) : Option (Value × List Char) :=
  let run := scalarRun cs
  (scalar? run).map fun v => (v, cs.drop run.length)

/-- How deep lists and tables in braces may lie within each other. -/
def depthLimit : Nat := 80

mutual

/-- A value; lists and tables in braces lie at most `depth` deep within it. -/
def value : (fuel depth : Nat) → List Char → Option (Value × List Char)
  | 0, _, _ => none
  | _, _, [] => none
  | n + 1, depth, c :: cs =>
    match c, depth with
    | '"', _ => (quoted '"' cs).map fun (s, cs) => (.text s, cs)
    | '\'', _ => (quoted '\'' cs).map fun (s, cs) => (.text s, cs)
    | '[', 0 | '\x7b', 0 => none
    | '[', depth + 1 => (items n depth (dropAllLines cs)).map fun (vs, cs) => (.list false vs, cs)
    | '\x7b', depth + 1 =>
      (inlineEntries n depth [] (dropAllLines cs)).map fun (es, cs) => (.table .inline es, cs)
    | c, _ => scalarValue (c :: cs)

/-- The items of a list, up to its closing bracket. -/
def items : (fuel depth : Nat) → List Char → Option (List Value × List Char)
  | 0, _, _ => none
  | _, _, ']' :: cs => some ([], cs)
  | n + 1, depth, cs =>
    (value n depth cs).bind fun (v, cs) =>
      match dropAllLines cs with
      | ']' :: cs => some ([v], cs)
      | ',' :: cs => (items n depth (dropAllLines cs)).map fun (vs, cs) => (v :: vs, cs)
      | _ => none

/-- The entries of a table in braces after `es`, up to its closing brace. -/
def inlineEntries : (fuel depth : Nat) → Entries → List Char → Option (Entries × List Char)
  | 0, _, _, _ => none
  | _, _, es, '\x7d' :: cs => some (es, cs)
  | n + 1, depth, es, cs =>
    (assignment n depth es cs).bind fun (es, cs) =>
      match dropAllLines cs with
      | '\x7d' :: cs => some (es, cs)
      | ',' :: cs => inlineEntries n depth es (dropAllLines cs)
      | _ => none

/-- A key, an equals sign and a value: the entries with the value under the key. -/
def assignment : (fuel depth : Nat) → Entries → List Char → Option (Entries × List Char)
  | 0, _, _, _ => none
  | n + 1, depth, es, cs =>
    match key (cs.length + 1) cs with
    | some (path, '=' :: cs) =>
      (value n depth (cs.dropWhile isBlank)).bind fun (v, cs) =>
        (es.assign v path).map fun es => (es, cs)
    | _ => none

end

/-- The path of a header with the given number of brackets, which are taken off before it. -/
def headerPath (closing : List Char) (cs : List Char) : Option (List String × List Char) :=
  (key (cs.length + 1) cs).bind fun (path, cs) =>
    (Text.dropPrefix? closing cs).map fun cs => (path, cs)

/-- A document as far as it is read: its entries, and the path of the table that is open. -/
structure Open where
  entries : Entries := []
  path : List String := []

/-- Reads a header or a key with its value, and what follows it. -/
def line (o : Open) (cs : List Char) : Option (Open × List Char) :=
  match cs with
  | '[' :: '[' :: cs =>
    (headerPath [']', ']'] cs).bind fun (path, cs) =>
      (o.entries.openAt Entries.openItem path).map fun entries => ({ entries, path }, cs)
  | '[' :: cs =>
    (headerPath [']'] cs).bind fun (path, cs) =>
      (o.entries.openAt Entries.openTable path).map fun entries => ({ entries, path }, cs)
  | cs =>
    match key (cs.length + 1) cs with
    | some (names, '=' :: cs) =>
      (value (cs.length + 1) depthLimit (cs.dropWhile isBlank)).bind fun (v, cs) =>
        (o.entries.changeAt (Entries.assign v names) o.path).map fun entries =>
          ({ o with entries }, cs)
    | _ => none

/-- Reads the lines of a document after those read so far. -/
def lines : Nat → Open → List Char → Option Entries
  | 0, _, _ => none
  | n + 1, o, cs =>
    match dropAllLines cs with
    | [] => some o.entries
    | cs =>
      (line o cs).bind fun (o, cs) =>
        match dropToEnd cs with
        | [] => some o.entries
        | cs => (dropNewline? cs).bind (lines n o)

/-- The entries of a document. -/
def parse? (text : String) : Option Entries :=
  let cs := text.toList
  let cs := if cs.head?.any (·.toNat == 0xFEFF) then cs.drop 1 else cs
  lines (cs.length + 1) {} cs

end Toml

end ExamPaper
