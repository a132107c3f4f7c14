import ExamPaper.Names
import ExamPaper.Text.Blank

/-!
# Tag queries

A tag query is a boolean condition on the tags of a question, written in postfix order: the words
`!`, `&` and `|` negate the top of a stack or join its two topmost values, and every other word puts
the membership of a tag on the stack. The word `.` joins the two words before it into one tag with a
space between them, so `unit one .` asks for the tag `unit one`.

The stack is a list with its top first. What a query answers depends on the tags, but whether it
answers at all, and with which error it fails, does not.

Mirrors `TagQuery` with `parse` and `matches`, and the functions `matches` and
`look_compatible_questions`.
-/

namespace ExamPaper

/-- What a word of a tag query stands for. -/
inductive TagToken where
  /-- The membership of a tag. -/
  | tag (name : String)
  | not
  | and
  | or
  deriving DecidableEq, Repr

/-- A tag query: the text it was read from, and its tokens. -/
structure TagQuery where
  source : String
  tokens : List TagToken
  deriving DecidableEq, Repr

/-- Why a tag query cannot be read or answered. -/
inductive TagQueryError where
  /-- A `.` without two words before it to join. -/
  | danglingJoin (query : String)
  /-- An operator with fewer values on the stack than it takes. -/
  | underflow (query : String) (operator : Char)
  /-- A number of values other than one on the stack at the end. -/
  | unbalanced (query : String) (depth : Nat)
  deriving DecidableEq, Repr

namespace TagQueryError

/-- The text that reports the error. -/
def message : TagQueryError → String
  | danglingJoin query => "tag query '" ++ query ++ "': '.' needs two preceding tokens"
  | underflow query operator =>
    "tag query '" ++ query ++ "': operator '" ++ operator.toString ++ "' has too few operands"
  | unbalanced query depth =>
    "tag query '" ++ query ++ "' leaves " ++ Nat.repr depth ++
      " values on the stack (expected 1)"

end TagQueryError

namespace TagToken

/-- What a word stands for, once the joins are done. -/
def ofWord : String → TagToken
  | "!" => not
  | "&" => and
  | "|" => or
  | word => tag word

end TagToken

namespace TagQuery

/-- One word read: `pending` holds the words read so far, the latest first. None if the word is a
`.` and there are no two words for it to join. -/
def pushWord? (pending : List String) (word : String) : Option (List String) :=
  if word = "." then
    match pending with
    | last :: before :: pending => some ((before ++ " " ++ last) :: pending)
    | _ => none
  else some (word :: pending)

/-- The words of a query after all joins, the latest first. -/
def joinWords? (words : List String) : Option (List String) := words.foldlM pushWord? []

/-- Reads a query. -/
def parse (source : String) : Except TagQueryError TagQuery :=
  match joinWords? (Text.words source) with
  | none => .error (.danglingJoin source)
  | some pending => .ok ⟨source, pending.reverse.map TagToken.ofWord⟩

/-- One token carried out on the stack; an operator that lacks operands is the error. -/
def step (holds : String → Bool) (stack : List Bool) : TagToken → Except Char (List Bool)
  | .tag name => .ok (holds name :: stack)
  | .not => match stack with
    | a :: stack => .ok ((!a) :: stack)
    | _ => .error '!'
  | .and => match stack with
    | a :: b :: stack => .ok ((a && b) :: stack)
    | _ => .error '&'
  | .or => match stack with
    | a :: b :: stack => .ok ((a || b) :: stack)
    | _ => .error '|'

/-- The stack after all tokens. -/
def run (holds : String → Bool) (tokens : List TagToken) (stack : List Bool) :
    Except Char (List Bool) :=
  tokens.foldlM (step holds) stack

/-- The answer of a query on a set of tags. -/
def holds (q : TagQuery) (tags : NameSet) : Except TagQueryError Bool :=
  match run tags.contains q.tokens [] with
  | .error operator => .error (.underflow q.source operator)
  | .ok [answer] => .ok answer
  | .ok stack => .error (.unbalanced q.source stack.length)

/-- The items whose tags satisfy a query, in order; none is looked at if there are no items. -/
def select {α : Type} (q : TagQuery) (tags : α → NameSet) : List α → Except TagQueryError (List α)
  | [] => .ok []
  | item :: items =>
    match q.holds (tags item) with
    | .error e => .error e
    | .ok answer =>
      match select q tags items with
      | .error e => .error e
      | .ok rest => .ok (if answer then item :: rest else rest)

/-- The answer of the query that a text denotes. -/
def textHolds (source : String) (tags : NameSet) : Except TagQueryError Bool :=
  match parse source with
  | .error e => .error e
  | .ok q => q.holds tags

end TagQuery

end ExamPaper
