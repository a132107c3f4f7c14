import ExamPaper.Decimal.Text

/-!
# Document values

The values that a YAML document denotes: null, truth values, numbers, texts, lists, mappings from
values to values, and values with a tag. A mapping keeps its entries in the order in which they
were written. Most readings of a value look through its tags; what tells the kinds of values apart
does not.
-/

namespace ExamPaper

/-- A number of a document: a whole number, or a float. -/
inductive Number where
  | int (n : Int)
  | float (x : Float)
  deriving DecidableEq, Repr, Inhabited

namespace Number

/-- The number as a float. -/
def toFloat : Number → Float
  | int n => Float.ofInt n
  | float x => x

/-- A finite float as a document writes it: positional if it is at least 0.00001 and below
10^16, with an exponent otherwise, and never without a point or an exponent. -/
def finiteText (x : Float) (d : Dyadic) : String :=
  let s := Decimal.shortest .even d
  let digits := Nat.toDigits 10 s.digits
  let whole : Int := digits.length + s.exponent
  String.ofList <| Decimal.signed d.negative <|
    if x == 0 then ['0', '.', '0']
    else if 0 ≤ s.exponent && whole ≤ 16 then Decimal.positional digits whole ++ ['.', '0']
    else if -5 < whole && whole ≤ 16 then Decimal.positional digits whole
    else
      let mantissa := match digits with
        | [digit] => [digit]
        | digits => digits.take 1 ++ '.' :: digits.drop 1
      mantissa ++ 'e' :: (Int.repr (whole - 1)).toList

/-- The text of a number in a document. -/
def text : Number → String
  | int n => Int.repr n
  | float x =>
    match Dyadic.ofFloat? x with
    | some d => finiteText x d
    | none => if x.isNaN then ".nan" else if x < 0 then "-.inf" else ".inf"

end Number

/-- A value that a document denotes. -/
inductive Value where
  | null
  | bool (b : Bool)
  | number (n : Number)
  | text (s : String)
  | list (items : List Value)
  | mapping (entries : List (Value × Value))
  /-- A value with a tag, of which the name is kept (`Value.mark`). -/
  | tagged (tag : String) (value : Value)
  deriving Repr, Inhabited

/-- The entries of a mapping. -/
abbrev Entries := List (Value × Value)

namespace Value

/-- The name of a tag. A mark at its start does not belong to it, unless there is nothing else. -/
def tagName (tag : String) : String :=
  match tag.toList with
  | '!' :: c :: cs => String.ofList (c :: cs)
  | _ => tag

/-- The value with a tag. -/
def mark (v : Value) (tag : String) : Value := .tagged (tagName tag) v

/-- The value under its tags. -/
def untagged : Value → Value
  | tagged _ v => untagged v
  | v => v

/-- Whether the value under its tags is null. -/
def isNull (v : Value) : Bool := match v.untagged with
  | null => true
  | _ => false

/-- The number under the tags, as a float. -/
def float? (v : Value) : Option Float := match v.untagged with
  | number n => some n.toFloat
  | _ => none

/-- The whole number that is not negative under the tags; a float is none, even a whole one. -/
def count? (v : Value) : Option Nat := match v.untagged with
  | number (.int n) => if 0 ≤ n then some n.toNat else none
  | _ => none

/-- The text under the tags. -/
def text? (v : Value) : Option String := match v.untagged with
  | text s => some s
  | _ => none

/-- The text of a single value without a tag: a text, a number or a truth value. -/
def scalarText? : Value → Option String
  | text s => some s
  | number n => some n.text
  | bool b => some (if b then "true" else "false")
  | _ => none

end Value

/-- Whether two numbers count as one key of a mapping: zeros of both signs do, and so do any two
floats that are no numbers. -/
def Number.same : Number → Number → Bool
  | .int m, .int n => m == n
  | .float x, .float y => x == y || (x.isNaN && y.isNaN)
  | _, _ => false

mutual

/-- Whether two values count as one key of a mapping; the order of entries does not matter. -/
def Value.same : Value → Value → Bool
  | .null, .null => true
  | .bool a, .bool b => a == b
  | .number m, .number n => m.same n
  | .text s, .text t => s == t
  | .list vs, .list ws => sameItems vs ws
  | .mapping es, .mapping fs => es.length == fs.length && entriesAmong es fs
  | .tagged s v, .tagged t w => s == t && Value.same v w
  | _, _ => false

/-- Whether two lists hold the same values in the same order. -/
def sameItems : List Value → List Value → Bool
  | [], [] => true
  | v :: vs, w :: ws => Value.same v w && sameItems vs ws
  | _, _ => false

/-- Whether all entries of the first mapping are among those of the second one. -/
def entriesAmong : List (Value × Value) → List (Value × Value) → Bool
  | [], _ => true
  | (k, v) :: es, fs =>
    (fs.any fun (l, w) => Value.same k l && Value.same v w) && entriesAmong es fs

end

namespace Entries

/-- The value under a text in a mapping. -/
def get? (entries : Entries) (key : String) : Option Value :=
  match entries with
  | [] => none
  | (.text s, v) :: rest => if s = key then some v else get? rest key
  | _ :: rest => get? rest key

/-- Whether a key is in a mapping. -/
def containsKey (entries : Entries) (key : Value) : Bool := entries.any fun (k, _) => key.same k

/-- The mapping with a value under a key, in place of what was under that key. -/
def insert (entries : Entries) (key value : Value) : Entries :=
  match entries with
  | [] => [(key, value)]
  | (k, v) :: rest => if key.same k then (k, value) :: rest else (k, v) :: insert rest key value

end Entries

end ExamPaper
