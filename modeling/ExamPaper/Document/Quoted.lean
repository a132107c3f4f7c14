import ExamPaper.Document.Cursor
import ExamPaper.Document.Scalar

/-!
# Quoted scalars

In single quotes a quote is written twice and everything else stands for itself. In double quotes a
backslash begins an escape, or joins two lines. Line breaks are folded in both.
-/

namespace ExamPaper

namespace Document

/-- A character of a quoted scalar, as many characters as it is written with. -/
inductive QuotedItem where
  | char (c : Char) (size : Nat)
  /-- A line break that a backslash escapes. -/
  | joinedLines
  /-- The quote at the end, a gap or the end of the text. -/
  | stop
  /-- No escape. -/
  | invalid

/-- The character of a number written with some hexadecimal digits. -/
def hexItem (width : Nat) (cs : List Char) : QuotedItem :=
  let digits := cs.take width
  if digits.length < width then .invalid
  else match inBase? 16 digits with
    | none => .invalid
    | some n =>
      if (0xD800 ≤ n && n ≤ 0xDFFF) || 0x10FFFF < n then .invalid
      else .char (Char.ofNat n) (width + 2)

/-- An escape, its backslash taken off. -/
def escapeItem : List Char → QuotedItem
  | [] => .invalid
  | c :: cs =>
    match c with
    | '0' => .char (Char.ofNat 0) 2
    | 'a' => .char (Char.ofNat 7) 2
    | 'b' => .char (Char.ofNat 8) 2
    | 't' => .char '\t' 2
    | '\t' => .char '\t' 2
    | 'n' => .char '\n' 2
    | 'v' => .char (Char.ofNat 11) 2
    | 'f' => .char (Char.ofNat 12) 2
    | 'r' => .char '\r' 2
    | 'e' => .char (Char.ofNat 27) 2
    | ' ' => .char ' ' 2
    | '"' => .char '"' 2
    | '/' => .char '/' 2
    | '\\' => .char '\\' 2
    | 'N' => .char (Char.ofNat 0x85) 2
    | '_' => .char (Char.ofNat 0xA0) 2
    | 'L' => .char (Char.ofNat 0x2028) 2
    | 'P' => .char (Char.ofNat 0x2029) 2
    | 'x' => hexItem 2 cs
    | 'u' => hexItem 4 cs
    | 'U' => hexItem 8 cs
    | c => if isLineBreak c then .joinedLines else .invalid

/-- What comes next in a quoted scalar. -/
def quotedItem (quote : Char) : List Char → QuotedItem
  | [] => .stop
  | c :: cs =>
    if c == quote then
      if quote == '\'' && cs.head? == some '\'' then .char '\'' 2 else .stop
    else if isGapOrEnd (some c) then .stop
    else if c == '\\' && quote == '"' then escapeItem cs
    else .char c 1

/-- A run of characters of a quoted scalar without a gap, put before `text`, which has its latest
character first; whether the run ends in an escaped line break; and the cursor after it. -/
def quotedRun (quote : Char) : Nat → List Char → Cursor → Option (List Char × Bool × Cursor)
  | 0, text, c => some (text, false, c)
  | n + 1, text, c =>
    match quotedItem quote c.rest with
    | .invalid => none
    | .stop => some (text, false, c)
    | .joinedLines => some (text, true, (c.skip 1).skipBreak)
    | .char x size => quotedRun quote n (x :: text) (c.skip size)

/-- The rest of a quoted scalar after `text`, which has its latest character first, and the cursor
after the quote at its end. -/
def quotedFrom (quote : Char) : Nat → List Char → Cursor → Option (List Char × Cursor)
  | 0, _, _ => none
  | n + 1, text, c =>
    if c.atDocumentMark || c.rest.isEmpty then none
    else match quotedRun quote c.rest.length text c with
      | none => none
      | some (text, joined, c) =>
        if c.startsWith quote then some (text.reverse, c.skip 1)
        else match Gap.read 0 c.rest.length { broken := joined } c with
          | none => none
          | some (g, c) => quotedFrom quote n (g.text.reverse ++ text) c

/-- The scalar between the quote that comes next and the one at its end. -/
def quotedScalar (quote : Char) (c : Cursor) : Option (List Char × Cursor) :=
  quotedFrom quote (c.rest.length + 1) [] (c.skip 1)

end Document

end ExamPaper
