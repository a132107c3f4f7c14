import ExamPaper.Toml.Value

/-!
# Tables of a TOML document

How headers and keys with dots build tables. A table has at most one header and a key at most one
value. A header may name a table that was part of a longer header before, and a key with dots may
add to what keys with dots have begun; nothing adds to a table in braces.
-/

namespace ExamPaper

namespace Toml

namespace Entries

/-- The value with its last table changed, where a list of tables stands for the last of them. -/
def changeLast (change : Entries → Option Entries) : List Value → Option (List Value)
  | [] => none
  | [.table kind es] => (change es).map fun es => [.table kind es]
  | [_] => none
  | v :: vs => (changeLast change vs).map (v :: ·)

/-- The entries with the table under a key changed; a list of tables stands for its last one. -/
def changeUnder (key : String) (change : Entries → Option Entries) (es : Entries) :
    Option Entries :=
  match es.get? key with
  | some (.table kind inner) => (change inner).map fun inner => es.put key (.table kind inner)
  | some (.list true items) => (changeLast change items).map fun items => es.put key (.list true items)
  | _ => none

/-- The entries with the table that a header has opened changed. -/
def changeAt (change : Entries → Option Entries) : List String → Entries → Option Entries
  | [], es => change es
  | key :: path, es => changeUnder key (changeAt change path) es

/-- Whether nothing can be added to what is under a key. -/
def isClosed (es : Entries) (key : String) : Bool :=
  match es.get? key with
  | some (.table .inline _) => true
  | some (.table _ _) | some (.list true _) => false
  | _ => true

/-- Opens what a header names: `last` says what becomes of the last key of the header. -/
def openAt (last : String → Entries → Option Entries) : List String → Entries → Option Entries
  | [], _ => none
  | [key], es => last key es
  | key :: path, es =>
    match es.get? key with
    | none => (openAt last path []).map fun inner => es.put key (.table .implied inner)
    | some _ => if es.isClosed key then none else changeUnder key (openAt last path) es

/-- Opens the table under a key. -/
def openTable (key : String) (es : Entries) : Option Entries :=
  match es.get? key with
  | none => some (es.put key (.table .header []))
  | some (.table .implied inner) => some (es.put key (.table .header inner))
  | some _ => none

/-- Opens one more table of the list under a key. -/
def openItem (key : String) (es : Entries) : Option Entries :=
  match es.get? key with
  | none => some (es.put key (.list true [.table .header []]))
  | some (.list true items) => some (es.put key (.list true (items ++ [.table .header []])))
  | some _ => none

/-- Whether a key with dots may go through what is under a key, which is the last one before the
name of the value if `isLast` says so. -/
def admits (isLast : Bool) : Value → Bool
  | .table .dotted _ => true
  | .table .implied _ | .list true _ => !isLast
  | _ => false

/-- Puts a value under a key with dots. -/
def assign (v : Value) : List String → Entries → Option Entries
  | [], _ => none
  | [key], es => if (es.get? key).isSome then none else some (es.put key v)
  | key :: path, es =>
    match es.get? key with
    | none => (assign v path []).map fun inner => es.put key (.table .dotted inner)
    | some old =>
      if admits (path.length == 1) old then changeUnder key (assign v path) es else none

end Entries

end Toml

end ExamPaper
