import ExamPaper.Document.Block
import ExamPaper.Document.Plain
import ExamPaper.Document.Quoted
import ExamPaper.Document.Tag

/-!
# Tokens of a document

The tokens of a text: its scalars, the marks before and between them, and the openings and closings
of collections, those that only indentation shows included.

A key of a mapping is told by the colon after it. So wherever a key may start, its place among the
tokens is remembered, and when a colon follows on the same line the key token, and before it the
opening of the mapping if this is its first entry, are put in at that place. In a block, something
that starts at the indentation of a mapping has to be a key.
-/

namespace ExamPaper

namespace Document

/-- A token of a document. -/
inductive Token where
  /-- The mark `---`. -/
  | documentStart
  /-- The mark `...`. -/
  | documentEnd
  | directive (d : Directive)
  | openBlockList
  | openBlockMapping
  | closeBlock
  | openList
  | closeList
  | openMapping
  | closeMapping
  /-- The dash before an item of a block list. -/
  | item
  | comma
  | key
  | value
  | anchor (name : List Char)
  | reference (name : List Char)
  | tag (name : TagName)
  | scalar (text : List Char) (plain : Bool)
  /-- The end of the text. -/
  | finish
  /-- A place where no token can be read. -/
  | failure
  deriving Repr, Inhabited

/-- A place where a key may have started. -/
structure KeyStart where
  /-- Whether nothing but a key can be there. -/
  required : Bool
  /-- How many tokens come before it. -/
  position : Nat
  line : Nat
  index : Nat
  column : Nat
  deriving Repr

/-- Whether a key cannot have started there any more: a colon at the cursor would be on a later line
or too far away. -/
def KeyStart.isStale (k : KeyStart) (c : Cursor) : Bool :=
  k.line < c.line || k.index + 1024 < c.index

/-- Where the reading of tokens stands. -/
structure TokenState where
  cursor : Cursor
  /-- Whether more text follows, which cannot be read. -/
  isCut : Bool := false
  tokens : Array Token := #[]
  /-- The indentation of the innermost block collection. -/
  indent : Int := -1
  /-- The indentations of the block collections around it. -/
  outer : List Int := []
  /-- For the block context and each open bracket or brace, the innermost first, where a key may
  have started. -/
  keys : List (Option KeyStart) := [none]
  /-- Whether a key may start at the cursor. -/
  keyAllowed : Bool := true

namespace TokenState

/-- Whether the cursor is within brackets or braces. -/
def inFlow (s : TokenState) : Bool := 1 < s.keys.length

/-- The state with one more token. -/
def add (s : TokenState) (t : Token) : TokenState := { s with tokens := s.tokens.push t }

/-- The state with one more token that has a number of characters. -/
def addSign (s : TokenState) (t : Token) (size : Nat) : TokenState :=
  { s.add t with cursor := s.cursor.skip size }

/-- Forgets where a key may have started; nothing else may be there if a key was required. -/
def dropKey? (s : TokenState) : Option TokenState :=
  match s.keys with
  | some k :: keys => if k.required then none else some { s with keys := none :: keys }
  | _ => some s

/-- Remembers that a key may start at the cursor. -/
def saveKey? (s : TokenState) : Option TokenState :=
  if s.keyAllowed then
    s.dropKey?.map fun s =>
      let start : KeyStart := {
        required := !s.inFlow && s.indent == (s.cursor.column : Int)
        position := s.tokens.size
        line := s.cursor.line
        index := s.cursor.index
        column := s.cursor.column }
      { s with keys := some start :: s.keys.drop 1 }
  else some s

/-- Forgets the keys that may have started on an earlier line or too far back. -/
def dropStaleKeys? (s : TokenState) : Option TokenState :=
  if s.keys.any fun key => key.any fun k => k.isStale s.cursor && k.required then none
  else some { s with keys := s.keys.map fun key => key.filter fun k => !k.isStale s.cursor }

/-- Opens a block collection at a column if it is further in than the innermost one; the token goes
to a given place, or to the end. -/
def openBlock (s : TokenState) (column : Nat) (position : Option Nat) (t : Token) : TokenState :=
  if !s.inFlow && s.indent < (column : Int) then
    let tokens := match position with
      | some k => s.tokens.insertIdxIfInBounds k t
      | none => s.tokens.push t
    { s with tokens, indent := column, outer := s.indent :: s.outer }
  else s

/-- Closes the block collections that are further in than a column. -/
def closeBlocks (column : Int) : List Int → TokenState → TokenState
  | [], s => s
  | parent :: outer, s =>
    if column < s.indent then
      closeBlocks column outer { s.add .closeBlock with indent := parent, outer }
    else s

/-- Closes the block collections that are further in than a column, unless within brackets. -/
def closeTo (s : TokenState) (column : Int) : TokenState :=
  if s.inFlow then s else closeBlocks column s.outer s

/-- Passes over spaces, comments and line breaks, and over a byte order mark at the start of a line,
which takes up a column. A tab is a space only where no key may start. -/
def skipToToken : Nat → TokenState → TokenState
  | 0, s => s
  | n + 1, s =>
    let c := s.cursor
    let c := if c.column = 0 && c.head?.any (·.toNat == 0xFEFF) then c.skip 1 else c
    let c := (c.span fun x => x == ' ' || (x == '\t' && (s.inFlow || !s.keyAllowed))).2
    let c := if c.startsWith '#' then (c.span fun x => !isLineBreak x).2 else c
    if c.head?.any isLineBreak then
      skipToToken n { s with cursor := c.skipBreak, keyAllowed := s.keyAllowed || !s.inFlow }
    else { s with cursor := c }

/-- The token of a mark between documents. -/
def documentMark? (s : TokenState) (t : Token) : Option TokenState :=
  (s.closeTo (-1)).dropKey?.map fun s => { s.addSign t 3 with keyAllowed := false }

/-- The tokens of a directive. -/
def directive? (s : TokenState) : Option TokenState :=
  match (s.closeTo (-1)).dropKey? with
  | none => none
  | some s => (directive s.cursor).map fun (d, c) =>
    { s.add (.directive d) with cursor := c, keyAllowed := false }

/-- An opening bracket or brace. -/
def openFlow? (s : TokenState) (t : Token) : Option TokenState :=
  s.saveKey?.map fun s => { s.addSign t 1 with keys := none :: s.keys, keyAllowed := true }

/-- A closing bracket or brace. -/
def closeFlow? (s : TokenState) (t : Token) : Option TokenState :=
  s.dropKey?.map fun s =>
    { s.addSign t 1 with
      keys := if s.inFlow then s.keys.drop 1 else s.keys
      keyAllowed := false }

/-- A comma. -/
def comma? (s : TokenState) : Option TokenState :=
  s.dropKey?.map fun s => { s.addSign .comma 1 with keyAllowed := true }

/-- The dash before an item. -/
def item? (s : TokenState) : Option TokenState :=
  if !s.inFlow && !s.keyAllowed then none
  else (s.openBlock s.cursor.column none .openBlockList).dropKey?.map fun s =>
    { s.addSign .item 1 with keyAllowed := true }

/-- The question mark before a key. -/
def key? (s : TokenState) : Option TokenState :=
  if !s.inFlow && !s.keyAllowed then none
  else (s.openBlock s.cursor.column none .openBlockMapping).dropKey?.map fun s =>
    { s.addSign .key 1 with keyAllowed := !s.inFlow }

/-- The colon before a value, which may make a key of what comes before it. -/
def value? (s : TokenState) : Option TokenState :=
  match s.keys with
  | some k :: keys =>
    let s := { s with tokens := s.tokens.insertIdxIfInBounds k.position .key }
    let s := s.openBlock k.column (some k.position) .openBlockMapping
    some { s.addSign .value 1 with keys := none :: keys, keyAllowed := false }
  | _ =>
    if !s.inFlow && !s.keyAllowed then none
    else
      let s := s.openBlock s.cursor.column none .openBlockMapping
      some { s.addSign .value 1 with keyAllowed := !s.inFlow }

/-- A token that may start a key, read by a function on cursors. -/
def inline? {α : Type} (s : TokenState) (read : Cursor → Option (α × Cursor)) (token : α → Token) :
    Option TokenState :=
  match s.saveKey? with
  | none => none
  | some s => (read s.cursor).map fun (x, c) =>
    { s.add (token x) with cursor := c, keyAllowed := false }

/-- A block scalar. -/
def block? (s : TokenState) (folded : Bool) : Option TokenState :=
  match s.dropKey? with
  | none => none
  | some s => (blockScalar folded s.indent s.cursor).map fun (text, c) =>
    { s.add (.scalar text false) with cursor := c, keyAllowed := true }

/-- A plain scalar; a key may start on the line after it. -/
def plain? (s : TokenState) : Option TokenState :=
  match s.saveKey? with
  | none => none
  | some s => (plainScalar s.inFlow (s.indent + 1) s.cursor).map fun (text, broken, c) =>
    { s.add (.scalar text true) with cursor := c, keyAllowed := broken }

/-- Whether a plain scalar may start with a character before another one. -/
def startsPlain (inFlow : Bool) (x : Char) (next : Option Char) : Bool :=
  !("-?:,[]\x7b\x7d#&*!|>'\"%@`".toList.contains x || isGapOrEnd (some x)) ||
    (x == '-' && !next.any isSpace) ||
    (!inFlow && (x == '?' || x == ':') && !isGapOrEnd next)

/-- The end of the text. -/
def finish? (s : TokenState) : Option TokenState :=
  (s.closeTo (-1)).dropKey?.map fun s => s.add .finish

/-- The next token, of which the character `x` is the first. -/
def tokenAt? (s : TokenState) (x : Char) : Option TokenState :=
  let next := s.cursor.rest[1]?
  if s.cursor.column = 0 && x == '%' then s.directive?
  else if s.cursor.atDocumentMark then
    s.documentMark? (if x == '-' then .documentStart else .documentEnd)
  else match x with
    | '[' => s.openFlow? .openList
    | '\x7b' => s.openFlow? .openMapping
    | ']' => s.closeFlow? .closeList
    | '\x7d' => s.closeFlow? .closeMapping
    | ',' => s.comma?
    | '*' => s.inline? anchorName .reference
    | '&' => s.inline? anchorName .anchor
    | '!' => s.inline? (tagName s.inFlow) .tag
    | '\'' => s.inline? (quotedScalar '\'') (.scalar · false)
    | '"' => s.inline? (quotedScalar '"') (.scalar · false)
    | x =>
      if x == '-' && isGapOrEnd next then s.item?
      else if x == '?' && (s.inFlow || isGapOrEnd next) then s.key?
      else if x == ':' && (s.inFlow || isGapOrEnd next) then s.value?
      else if x == '|' && !s.inFlow then s.block? false
      else if x == '>' && !s.inFlow then s.block? true
      else if startsPlain s.inFlow x next then s.plain?
      else none

/-- The tokens before the first that may still turn out to be in a key. -/
def settled (s : TokenState) : Array Token :=
  let pending := s.keys.filterMap fun key => key.filter fun k => !k.isStale s.cursor
  s.tokens.extract 0 (pending.foldl (fun least k => min least k.position) s.tokens.size)

/-- The tokens before a place where no token can be read. A token that may be in a key is not read
before that is known, so that it is lost there. -/
def fail (s : TokenState) : Array Token := s.settled.push .failure

/-- How many characters have to be there to tell what the next token is. -/
def lookAhead : Nat := 4

/-- Whether telling the next token takes text that cannot be read. -/
def endsTooEarly (s : TokenState) : Bool := s.isCut && (s.cursor.rest.drop (lookAhead - 1)).isEmpty

/-- Whether the end of the last token cannot be told from text that cannot be read. -/
def isTorn (s : TokenState) : Bool := s.isCut && s.cursor.rest.isEmpty

/-- The state after the next token or, at the end of the text, all tokens; none if neither can be
read. At most `fuel` lines come before the token. -/
def next? (fuel : Nat) (s : TokenState) : Option (TokenState ⊕ Array Token) :=
  let s := skipToToken fuel s
  if s.endsTooEarly then none
  else match s.dropStaleKeys? with
    | none => none
    | some s =>
      let s := s.closeTo s.cursor.column
      match s.cursor.head? with
      | none => s.finish?.map fun s => .inr s.tokens
      | some x => ((s.tokenAt? x).filter fun s => !s.isTorn).map .inl

/-- Reads tokens up to the end of the text or the first place where none can be read. The text has
fewer than `fuel` lines. -/
def run (fuel : Nat) : Nat → TokenState → Array Token
  | 0, s => s.fail
  | n + 1, s =>
    match s.next? fuel with
    | none => s.fail
    | some (.inl s) => run fuel n s
    | some (.inr tokens) => tokens

end TokenState

/-- The tokens of a text, the last of which is the end of the text or a failure. -/
def tokens (text : String) : List Token :=
  let (readable, isCut) := readablePieces text.toList
  let cs := normalizeBreaks readable
  let fuel := cs.length + 1
  (TokenState.run fuel fuel { cursor := { rest := cs }, isCut }).toList

end Document

end ExamPaper
