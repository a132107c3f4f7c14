import ExamPaper.Document.Cursor

/-!
# Plain scalars in a text

A scalar without quotes goes on, also over line breaks, up to a comment, to a colon with a gap after
it, to a line that is not indented far enough or, within brackets or braces, to one of these or a
comma.
-/

namespace ExamPaper

namespace Document

/-- A character that ends a plain scalar within brackets or braces. -/
def isFlowIndicator (c : Char) : Bool :=
  c == ',' || c == '[' || c == ']' || c == '\x7b' || c == '\x7d'

/-- How many characters of a plain scalar come next without a gap; none if a colon stands where it
cannot be told what it means. -/
def plainRun (inFlow : Bool) : Nat → List Char → Option Nat
  | count, [] => some count
  | count, c :: cs =>
    if isGapOrEnd (some c) then some count
    else if inFlow && c == ':' && cs.head?.any (fun d => isFlowIndicator d || d == '?') then none
    else if (c == ':' && isGapOrEnd cs.head?) || (inFlow && isFlowIndicator c) then some count
    else plainRun inFlow (count + 1) cs

/-- What has been read of a plain scalar: its text, latest character first, the gap after it, and
the cursor after the gap. -/
structure PlainText where
  text : List Char
  gap : Gap
  cursor : Cursor

/-- Reads a plain scalar whose lines have to start at the column `indent` at least. -/
def plainFrom (inFlow : Bool) (indent : Int) : Nat → PlainText → Option PlainText
  | 0, p => some p
  | n + 1, p =>
    let c := p.cursor
    if c.atDocumentMark || c.startsWith '#' then some p
    else match plainRun inFlow 0 c.rest with
      | none => none
      | some count =>
        let p : PlainText :=
          if count = 0 then p
          else {
            text := (c.rest.take count).reverse ++ (p.gap.text.reverse ++ p.text)
            gap := {}
            cursor := c.skip count }
        if !isGapOrEnd p.cursor.head? || p.cursor.rest.isEmpty then some p
        else match Gap.read indent p.cursor.rest.length p.gap p.cursor with
          | none => none
          | some (gap, c) =>
            let p := { p with gap, cursor := c }
            if !inFlow && (c.column : Int) < indent then some p
            else plainFrom inFlow indent n p

/-- The plain scalar that comes next, whether a line break was read after it, and the cursor at
what follows. -/
def plainScalar (inFlow : Bool) (indent : Int) (c : Cursor) : Option (List Char × Bool × Cursor) :=
  (plainFrom inFlow indent (c.rest.length + 1) { text := [], gap := {}, cursor := c }).map fun p =>
    (p.text.reverse, p.gap.broken, p.cursor)

end Document

end ExamPaper
