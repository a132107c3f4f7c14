/-!
# TOML values

The values of a TOML document. A table remembers how it came about, since that decides what may be
added to it later; so does a list that is written as one table after another.
-/

namespace ExamPaper

namespace Toml

/-- How a table came about. -/
inductive TableKind where
  /-- By a header of its own. -/
  | header
  /-- As part of a longer header. -/
  | implied
  /-- As part of a key with dots. -/
  | dotted
  /-- In braces. -/
  | inline
  deriving DecidableEq, Repr

/-- A value of a TOML document. -/
inductive Value where
  | text (s : String)
  | integer (n : Int)
  | float (x : Float)
  /-- An integer between 64 and 128 bits, which is an error only where it is used. -/
  | outOfRange
  | boolean (b : Bool)
  /-- A date, a time or both. -/
  | moment (text : String)
  | list (ofTables : Bool) (items : List Value)
  | table (kind : TableKind) (entries : List (String × Value))
  deriving Repr, Inhabited

/-- The entries of a table. -/
abbrev Entries := List (String × Value)

namespace Entries

/-- The value under a key. -/
def get? (es : Entries) (key : String) : Option Value := es.lookup key

/-- The entries with a new one under a key that had none, or in place of the old one. -/
def put (es : Entries) (key : String) (v : Value) : Entries :=
  match es with
  | [] => [(key, v)]
  | (k, old) :: rest => if k = key then (k, v) :: rest else (k, old) :: put rest key v

end Entries

end Toml

end ExamPaper
