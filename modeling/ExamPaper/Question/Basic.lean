import ExamPaper.Decimal.Text
import ExamPaper.File.Path
import ExamPaper.Tag.Query

/-!
# Questions

A question of the bank: its title, how difficult it is, how often it is to be drawn, its tags, and
its text fields, one for each output channel among them. A scaffold question is printed without a
number of its own.

Mirrors `Question` with `channel`, `channel_names` and `has_tag`, and `QuestionBuilder`. That the
banks of a tree share their questions is left out.
-/

namespace ExamPaper

/-- The fields of a question that have a fixed meaning and are therefore no text channels. -/
def reservedFields : List String :=
  ["scaffold", "difficulty", "autotag", "frequency", "tags", "title", "ignored"]

/-- The tag that every automatically tagged question has. -/
def allTag : String := "all"

/-- Where a question was read: a file, and the position of the document in it. -/
structure Origin where
  path : Path := ⟨""⟩
  document : Nat := 0
  deriving DecidableEq, Repr

/-- A question of the bank. -/
structure Question where
  title : String
  difficulty : Float
  /-- How much more often than a question of frequency one it is drawn. -/
  frequency : Float
  tags : NameSet
  /-- Whether the question is printed without a number of its own. -/
  scaffold : Bool
  /-- Whether the question got the tags that its file gives. -/
  autotag : Bool
  /-- Every field that is a single value, as text. -/
  fields : NameMap String
  origin : Origin
  deriving DecidableEq, Repr

namespace Question

/-- The text of a truth value. -/
def truthText (b : Bool) : String := if b then "true" else "false"

/-- A question with a title and nothing else: of difficulty and frequency one, without tags. -/
def titled (title : String) : Question where
  title := title
  difficulty := 1.0
  frequency := 1.0
  tags := {}
  scaffold := false
  autotag := false
  fields := NameMap.empty.insert "title" title
  origin := {}

/-- The question with a difficulty, which is also a field. -/
def withDifficulty (q : Question) (x : Float) : Question :=
  { q with difficulty := x, fields := q.fields.insert "difficulty" (Decimal.text x) }

/-- The question with a frequency, which is also a field. -/
def withFrequency (q : Question) (x : Float) : Question :=
  { q with frequency := x, fields := q.fields.insert "frequency" (Decimal.text x) }

/-- The question with one more tag. -/
def withTag (q : Question) (tag : String) : Question := { q with tags := q.tags.insert tag }

/-- The question with a text in a channel. -/
def withChannel (q : Question) (id text : String) : Question :=
  { q with fields := q.fields.insert id text }

/-- The text of a channel. -/
def channel? (q : Question) (id : String) : Option String := q.fields.get? id

/-- The fields that are text channels, in the order of their names. -/
def channelNames (q : Question) : List String :=
  q.fields.names.filter fun name => !reservedFields.contains name

end Question

end ExamPaper
