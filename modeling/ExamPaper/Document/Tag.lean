import ExamPaper.Document.Cursor
import ExamPaper.Document.Scalar

/-!
# Tags, anchors and directives

The small marks of a document: `!handle!suffix` and `!<...>` before a node, `&name` and `*name`, and
the lines `%YAML` and `%TAG` before a document.
-/

namespace ExamPaper

namespace Document

/-- A character of a tag; commas and brackets only within `!<...>`. -/
def isTagChar (verbatim : Bool) (c : Char) : Bool :=
  isNameChar c || ";/?:@&=+$.%!~*'()".toList.contains c ||
    (verbatim && (c == ',' || c == '[' || c == ']'))

/-- The bytes of a tag. They need not be a text, since an escape may give any of them. -/
abbrev TagBytes := List UInt8

/-- The bytes of a text. -/
def bytes (cs : List Char) : TagBytes := cs.flatMap String.utf8EncodeChar

/-- How many bytes a character has whose first one is given. -/
def encodedSize? (byte : Nat) : Option Nat :=
  if byte < 0x80 then some 1
  else if 0xC0 ≤ byte && byte < 0xE0 then some 2
  else if 0xE0 ≤ byte && byte < 0xF0 then some 3
  else if 0xF0 ≤ byte && byte < 0xF8 then some 4
  else none

/-- The byte that `%XX` denotes. -/
def escapedByte? : List Char → Option (Nat × List Char)
  | '%' :: a :: b :: cs => (inBase? 16 [a, b]).map fun n => (n, cs)
  | _ => none

/-- The bytes after the first one of a character, of which there are a number. -/
def continuedBytes? : Nat → List Char → Option (TagBytes × List Char)
  | 0, cs => some ([], cs)
  | more + 1, cs =>
    match escapedByte? cs with
    | some (byte, cs) =>
      if byte / 64 = 2 then
        (continuedBytes? more cs).map fun (rest, cs) => (UInt8.ofNat byte :: rest, cs)
      else none
    | none => none

/-- The bytes that a run of `%XX` denotes, as many as the first one says, and what follows it. Only
their shape matters, so that they may denote no character. -/
def escapedBytes? (cs : List Char) : Option (TagBytes × List Char) :=
  match escapedByte? cs with
  | none => none
  | some (byte, cs) =>
    match encodedSize? byte with
    | none => none
    | some size =>
      (continuedBytes? (size - 1) cs).map fun (rest, cs) => (UInt8.ofNat byte :: rest, cs)

/-- The bytes of a tag with its escapes resolved; none if one is no escape. -/
def tagBytes? : Nat → List Char → Option TagBytes
  | 0, _ => some []
  | _, [] => some []
  | n + 1, '%' :: cs =>
    (escapedBytes? ('%' :: cs)).bind fun (run, cs) => (tagBytes? n cs).map (run ++ ·)
  | n + 1, c :: cs => (tagBytes? n cs).map (bytes [c] ++ ·)

/-- The bytes up to the first that is zero: such a byte ends a tag. -/
def untilZero (run : TagBytes) : TagBytes := run.takeWhile (· ≠ 0)

/-- The characters of a tag that come next, as bytes with their escapes resolved. -/
def tagChars (verbatim : Bool) (c : Cursor) : Option (TagBytes × Cursor) :=
  let (run, c) := c.span (isTagChar verbatim)
  (tagBytes? run.length run).map fun run => (run, c)

/-- A tag as written: a handle that stands for a beginning of tags, and the end of the tag. The
handle of a tag that stands for itself is empty. -/
structure TagName where
  handle : List Char
  suffix : TagBytes
  deriving Repr

/-- The handle that comes next: `!`, `!!` or `!name!`; or `!name`, which is none. -/
def tagHandle (c : Cursor) : Option (List Char × Cursor) :=
  if c.startsWith '!' then
    let (name, c) := (c.skip 1).span isNameChar
    if c.startsWith '!' then some ('!' :: name ++ ['!'], c.skip 1) else some ('!' :: name, c)
  else none

/-- The tag within `!<...>`. -/
def verbatimTag (c : Cursor) : Option (TagName × Cursor) :=
  match tagChars true (c.skip 2) with
  | none => none
  | some (suffix, c) =>
    if suffix.isEmpty || !c.startsWith '>' then none else some (⟨[], untilZero suffix⟩, c.skip 1)

/-- The tag with a handle, or with `!` alone. -/
def shortTag (c : Cursor) : Option (TagName × Cursor) :=
  match tagHandle c with
  | none => none
  | some (handle, c) =>
    if 2 ≤ handle.length && handle.getLast? == some '!' then
      match tagChars false c with
      | some (suffix, c) => if suffix.isEmpty then none else some (⟨handle, untilZero suffix⟩, c)
      | none => none
    else
      match tagChars false c with
      | some (rest, c) =>
        let suffix := untilZero (bytes (handle.drop 1) ++ rest)
        some (if suffix.isEmpty then ⟨[], bytes ['!']⟩ else ⟨['!'], suffix⟩, c)
      | none => none

/-- The tag that comes next; a gap has to follow it or, within brackets or braces, a comma. -/
def tagName (inFlow : Bool) (c : Cursor) : Option (TagName × Cursor) :=
  let tag? := if c.rest[1]? == some '<' then verbatimTag c else shortTag c
  match tag? with
  | none => none
  | some (tag, c) =>
    if isGapOrEnd c.head? || (inFlow && c.startsWith ',') then some (tag, c) else none

/-- The name after `&` or `*`. -/
def anchorName (c : Cursor) : Option (List Char × Cursor) :=
  let (name, c) := (c.skip 1).span isNameChar
  let ends := match c.head? with
    | none => true
    | some x => isGapOrEnd (some x) || "?:,]\x7d%@`".toList.contains x
  if name.isEmpty || !ends then none else some (name, c)

/-- A line that says something about the document after it. -/
inductive Directive where
  | version (major minor : Nat)
  /-- A handle and the beginning of tags that it stands for. -/
  | handle (name : List Char) (start : TagBytes)
  deriving Repr

/-- One to nine digits. -/
def versionNumber (c : Cursor) : Option (Nat × Cursor) :=
  let (digits, c) := c.span Char.isDigit
  if 9 < digits.length then none else (inBase? 10 digits).map fun n => (n, c)

/-- The value of a version. -/
def versionDirective (c : Cursor) : Option (Directive × Cursor) :=
  match versionNumber c.skipSpaces with
  | none => none
  | some (major, c) =>
    if c.startsWith '.' then
      (versionNumber (c.skip 1)).map fun (minor, c) => (.version major minor, c)
    else none

/-- A handle and what it stands for. -/
def handleDirective (c : Cursor) : Option (Directive × Cursor) :=
  match tagHandle c.skipSpaces with
  | none => none
  | some (name, c) =>
    if (name != ['!'] && (name.length < 2 || name.getLast? != some '!')) ||
      !c.head?.any isSpace then none
    else match tagChars true c.skipSpaces with
      | none => none
      | some (start, c) =>
        if start.isEmpty || !isGapOrEnd c.head? then none
        else some (.handle name (untilZero start), c)

/-- The directive of a line, whose `%` comes next, and the cursor at the next line. -/
def directive (c : Cursor) : Option (Directive × Cursor) :=
  let (name, c) := (c.skip 1).span isNameChar
  if !isGapOrEnd c.head? then none
  else
    let directive? := match String.ofList name with
      | "YAML" => versionDirective c
      | "TAG" => handleDirective c
      | _ => none
    match directive? with
    | none => none
    | some (d, c) => c.skipComment?.map fun c => (d, if c.rest.isEmpty then c else c.skipBreak)

end Document

end ExamPaper
