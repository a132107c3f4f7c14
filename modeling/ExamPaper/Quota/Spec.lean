import ExamPaper.Document.Reading
import ExamPaper.Document.Written
import ExamPaper.Limits
import ExamPaper.Quota.Range

/-!
# Quota specifications

What the `parts` of an exam say: an integer, a count range, a tag query, a list of specifications to
be summed, or a mapping whose entries pair a count range with what it counts. A specification is
read from a document value once, and its texts are told apart into count ranges and tag queries.

Mirrors `QuotaSpec` with `from_value` and `from_yaml`.
-/

namespace ExamPaper

/-- A quota as it is written. -/
inductive QuotaSpec where
  | count (n : Int)
  /-- A text of the form of a count range. -/
  | range (text : String)
  /-- A tag query. -/
  | tag (text : String)
  /-- The sum of one or more quotas. -/
  | sequence (items : List QuotaSpec)
  /-- A mapping with a single entry. -/
  | pair (key value : QuotaSpec)
  /-- The sum of two or more mapping entries. -/
  | mapping (pairs : List (QuotaSpec × QuotaSpec))
  deriving Repr, Inhabited

namespace QuotaSpec

/-- The specification that a text denotes. -/
def ofText (value : Value) (s : String) : Except QuotaError QuotaSpec :=
  let text := Text.trim s
  if text.isEmpty then .error (.invalidSpec (Document.written value) .emptyText)
  else if CountRange.isRangeText text then .ok (range text)
  else .ok (tag text)

/-- The specification that an integer denotes, which has to fit 64 bits with its sign. -/
def ofNumber (value : Value) : Number → Except QuotaError QuotaSpec
  | .int n =>
    if n < signedLimit then .ok (count n)
    else .error (.invalidSpec (Document.written value) .notAnInteger)
  | .float _ => .error (.invalidSpec (Document.written value) .notAnInteger)

mutual

/-- Reads a specification from a value. -/
def ofValue : Value → Except QuotaError QuotaSpec
  | .number n => ofNumber (.number n) n
  | .text s => ofText (.text s) s
  | .list items =>
    match ofItems items with
    | .error e => .error e
    | .ok [] => .error (.invalidSpec (Document.written (.list items)) .emptyList)
    | .ok items => .ok (sequence items)
  | .mapping entries =>
    match ofEntries entries with
    | .error e => .error e
    | .ok [] => .error (.invalidSpec (Document.written (.mapping entries)) .emptyMapping)
    | .ok [(key, value)] => .ok (pair key value)
    | .ok pairs => .ok (mapping pairs)
  | .null => .error (.invalidSpec (Document.written .null) .null)
  | .bool b => .error (.invalidSpec (Document.written (.bool b)) .truthValue)
  | .tagged t v => .error (.invalidSpec (Document.written (.tagged t v)) .tag)

/-- Reads the items of a list, in order. -/
def ofItems : List Value → Except QuotaError (List QuotaSpec)
  | [] => .ok []
  | v :: vs =>
    match ofValue v with
    | .error e => .error e
    | .ok item =>
      match ofItems vs with
      | .error e => .error e
      | .ok items => .ok (item :: items)

/-- Reads the entries of a mapping, in order, the key of each before its value. -/
def ofEntries : List (Value × Value) → Except QuotaError (List (QuotaSpec × QuotaSpec))
  | [] => .ok []
  | (k, v) :: es =>
    match ofValue k with
    | .error e => .error e
    | .ok key =>
      match ofValue v with
      | .error e => .error e
      | .ok value =>
        match ofEntries es with
        | .error e => .error e
        | .ok pairs => .ok ((key, value) :: pairs)

end

/-- Reads a specification from YAML text. -/
def parse (text : String) : Except QuotaError QuotaSpec :=
  match Document.parse? text with
  | some v => ofValue v
  | none => .error (.invalidSpec text .notADocument)

end QuotaSpec

end ExamPaper
