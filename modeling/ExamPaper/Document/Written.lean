import ExamPaper.Document.Page
import ExamPaper.Document.Shape
import ExamPaper.Document.Tag
import ExamPaper.Text.Blank

/-!
# Values as YAML text

How a value is shown in a report: as the YAML text that denotes it, or by its shape where its tags
and its mappings lie within each other in a way that cannot be written. Lists and mappings that are
not empty take one line for each item. A key that has more than one line, or that is long, stands
after a question mark, and its value in a line of its own.

Mirrors `describe`.
-/

namespace ExamPaper

namespace Document

/-! ## Values that can be written

A mapping of a single entry is told from a tag only by its key, so that such a key must be neither.
Under a tag that has been told already. -/

/-- Whether a value is a tag or a mapping of a single entry. -/
def isTagLike : Value → Bool
  | .tagged _ _ | .mapping [_] => true
  | _ => false

/-- Whether a value has a tag. -/
def hasTag : Value → Bool
  | .tagged _ _ => true
  | _ => false

/-- Whether a mapping of a single entry has a key that is taken for a tag. -/
def hasTagLikeKey : Entries → Bool
  | [(key, _)] => isTagLike key
  | _ => false

mutual

/-- Whether a value can be written, under a tag or not. -/
def isWritable (underTag : Bool) : Value → Bool
  | .list items => areWritable items
  | .mapping entries => (underTag || !hasTagLikeKey entries) && entriesAreWritable entries
  | .tagged _ v => !hasTag v && isWritable true v
  | _ => true

/-- Whether all values of a list can be written. -/
def areWritable : List Value → Bool
  | [] => true
  | v :: vs => isWritable false v && areWritable vs

/-- Whether all keys and values of a mapping can be written. -/
def entriesAreWritable : List (Value × Value) → Bool
  | [] => true
  | (k, v) :: es => isWritable false k && isWritable false v && entriesAreWritable es

end

/-! ## Tags -/

/-- A tag with the mark before it, up to a character NUL, which ends it. -/
def markedTag (tag : String) : List Char :=
  match tag.toList.takeWhile (· ≠ '\x00') with
  | '!' :: cs => '!' :: cs
  | cs => '!' :: cs

/-- A character of a tag, as it is or by its bytes. -/
def tagChar (c : Char) : List Char :=
  if isNameChar c || ";/?:@&=+$,.~*'()[]".toList.contains c then [c]
  else (bytes [c]).flatMap fun byte => '%' :: hexadecimal 2 byte.toNat

/-- A tag as a word; the mark alone has to be escaped. -/
def writtenTag (tag : String) : List Char :=
  match markedTag tag with
  | mark :: c :: cs => mark :: (c :: cs).flatMap tagChar
  | mark => ['!', '<'] ++ mark.flatMap tagChar ++ ['>']

/-! ## Keys -/

/-- The text of a value without a tag that is no text and no collection. -/
def simpleText : Value → String
  | .bool b => if b then "true" else "false"
  | .number n => n.text
  | _ => "null"

/-- The number of bytes that count for a key that fits on a line. -/
def keySize? : Value → Option Nat
  | .text s => if s.toList.any isBreak then none else some s.utf8ByteSize
  | .list items => if items.isEmpty then some 0 else none
  | .mapping entries => if entries.isEmpty then some 0 else none
  | .tagged tag v => (keySize? v).map (· + (bytes (markedTag tag)).length)
  | v => some (simpleText v).utf8ByteSize

/-- The number of bytes that a key may have on the line of its value. -/
def keyLimit : Nat := 128

/-- Whether a key stands on the line of its value. -/
def isShortKey (key : Value) : Bool := (keySize? key).any (· ≤ keyLimit)

/-! ## Writing -/

/-- How far in a value stands. -/
inductive Margin where
  /-- Nowhere within a collection. -/
  | top
  /-- In a list whose items have this indentation. -/
  | item (width : Nat)
  /-- In a mapping whose keys have this indentation. -/
  | entry (width : Nat)
  deriving DecidableEq, Repr

namespace Margin

/-- The indentation of a collection. -/
def inner : Margin → Nat
  | top => 0
  | item width | entry width => width + 2

/-- The indentation of the further lines of a text. -/
def ofText : Margin → Nat
  | top => 2
  | item width | entry width => width + 2

/-- The indentation of a list. In a mapping it is that of the keys, if the line of the list has
begun. -/
def ofList (isFresh : Bool) : Margin → Nat
  | entry width => if isFresh then width + 2 else width
  | m => m.inner

end Margin

mutual

/-- Puts a value on a page. -/
def put (m : Margin) : Value → Page → Page
  | .text s, p => p.scalar m.ofText s.toList
  | .list items, p =>
    if items.isEmpty then p.word ['[', ']'] else putItems (m.ofList p.isFresh) items p
  | .mapping entries, p =>
    if entries.isEmpty then p.word ['\x7b', '\x7d'] else putEntries m.inner entries p
  | .tagged tag v, p => put m v (p.word (writtenTag tag))
  | v, p => p.word (simpleText v).toList

/-- Puts the items of a list on a page. -/
def putItems (width : Nat) : List Value → Page → Page
  | [], p => p
  | v :: vs, p => putItems width vs (put (.item width) v ((p.indent width).sign '-'))

/-- Puts the entries of a mapping on a page. -/
def putEntries (width : Nat) : List (Value × Value) → Page → Page
  | [], p => p
  | (k, v) :: es, p =>
    let p := p.indent width
    let p :=
      if isShortKey k then (put (.entry width) k p).attach [':']
      else ((put (.entry width) k (p.sign '?')).indent width).sign ':'
    putEntries width es (put (.entry width) v p)

end

/-- A value as YAML text or, if it cannot be written, its shape; without blanks at the end. -/
def written (v : Value) : String :=
  Text.trimEnd (if isWritable false v then (put .top v {}).text else shape v)

end Document

end ExamPaper
