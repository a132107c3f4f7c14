import ExamPaper.Document.Cursor

/-!
# Block scalars

A block scalar is the lines below its header that are indented far enough, without their
indentation. After `|` the lines stay as they are; after `>` a line break between two lines that do
not start with a blank is folded. The header may give the indentation, and says what becomes of the
line breaks at the end: they are dropped after `-`, kept after `+`, and otherwise a single one is
kept.
-/

namespace ExamPaper

namespace Document

/-- What becomes of the line breaks at the end of a block scalar. -/
inductive Chomping where
  | strip
  | clip
  | keep
  deriving DecidableEq

/-- What the header of a block scalar says. -/
structure BlockHeader where
  chomping : Chomping := .clip
  /-- How much further than its surroundings the block is indented, if given. -/
  increment : Option Nat := none

/-- The sign that says what becomes of the line breaks at the end. -/
def chomping? : Option Char → Option Chomping
  | some '+' => some .keep
  | some '-' => some .strip
  | _ => none

/-- The digit that gives the indentation. -/
def increment? : Option Char → Option Nat
  | some c => if c.isDigit then some (c.toNat - 48) else none
  | none => none

/-- Reads the header after its `|` or `>`; an indentation of zero is an error. -/
def blockHeader (c : Cursor) : Option (BlockHeader × Cursor) :=
  let (header, c) : BlockHeader × Cursor :=
    match chomping? c.head? with
    | some chomping =>
      let c := c.skip 1
      match increment? c.head? with
      | some n => ({ chomping, increment := some n }, c.skip 1)
      | none => ({ chomping }, c)
    | none =>
      match increment? c.head? with
      | none => ({}, c)
      | some n =>
        let c := c.skip 1
        match chomping? c.head? with
        | some chomping => ({ chomping, increment := some n }, c.skip 1)
        | none => ({ increment := some n }, c)
  if header.increment = some 0 then none
  else c.skipComment?.map fun c => (header, if c.rest.isEmpty then c else c.skipBreak)

/-- What has been read of the empty lines before a line of a block. -/
structure BlockLead where
  /-- The line breaks, latest first. -/
  breaks : List Char := []
  /-- The largest indentation seen. -/
  widest : Nat := 0

/-- Reads empty lines and the indentation of the line after them. An indentation of zero is not
known yet, and any number of spaces belongs to it. A tab in it is an error. -/
def blockLead (indent : Nat) : Nat → BlockLead → Cursor → Option (BlockLead × Cursor)
  | 0, lead, c => some (lead, c)
  | n + 1, lead, c =>
    let spaces := (c.rest.takeWhile (· == ' ')).length
    let c := c.skip (if indent = 0 then spaces else min spaces (indent - c.column))
    let lead := { lead with widest := max lead.widest c.column }
    match c.head? with
    | none => some (lead, c)
    | some x =>
      if x == '\t' && (indent = 0 || c.column < indent) then none
      else if isLineBreak x then
        blockLead indent n { lead with breaks := x :: lead.breaks } c.skipBreak
      else some (lead, c)

/-- What has been read of a block: its text, its last line break and the empty lines after it, all
with the latest character first, and whether its last line starts with a blank. -/
structure BlockText where
  text : List Char := []
  lastBreak : Option Char := none
  breaks : List Char := []
  blank : Bool := false

namespace BlockText

/-- The text with the line breaks before one more line, folded if `folded` says so. -/
def joined (b : BlockText) (folded blank : Bool) : List Char :=
  if folded && b.lastBreak == some '\n' && !b.blank && !blank then
    if b.breaks.isEmpty then ' ' :: b.text else b.breaks ++ b.text
  else b.breaks ++ (b.lastBreak.toList ++ b.text)

/-- The whole text, with the line breaks at its end that are kept. -/
def finish (b : BlockText) (chomping : Chomping) : List Char :=
  let text := if chomping = .strip then b.text else b.lastBreak.toList ++ b.text
  (if chomping = .keep then b.breaks ++ text else text).reverse

end BlockText

/-- Reads the lines of a block. -/
def blockLines (folded : Bool) (indent : Nat) :
    Nat → BlockText → Cursor → Option (BlockText × Cursor)
  | 0, b, c => some (b, c)
  | n + 1, b, c =>
    if c.column = indent && !c.rest.isEmpty then
      let blank := c.head?.any isSpace
      let text := b.joined folded blank
      let (line, c) := c.span fun x => !isLineBreak x
      let lastBreak := c.head?
      let c := if c.rest.isEmpty then c else c.skipBreak
      match blockLead indent (c.rest.length + 1) {} c with
      | none => none
      | some (lead, c) =>
        blockLines folded indent n
          { text := line.reverse ++ text, lastBreak, breaks := lead.breaks, blank } c
    else some (b, c)

/-- The block scalar whose `|` or `>` comes next, in surroundings of the given indentation. -/
def blockScalar (folded : Bool) (parent : Int) (c : Cursor) : Option (List Char × Cursor) :=
  match blockHeader (c.skip 1) with
  | none => none
  | some (header, c) =>
    let given := match header.increment with
      | some n => (max parent 0).toNat + n
      | none => 0
    match blockLead given (c.rest.length + 1) {} c with
    | none => none
    | some (lead, c) =>
      let indent := if given = 0 then max lead.widest (max (parent + 1).toNat 1) else given
      match blockLines folded indent (c.rest.length + 1) { breaks := lead.breaks } c with
      | none => none
      | some (b, c) => some (b.finish header.chomping, c)

end Document

end ExamPaper
