import ExamPaper.Limits
import ExamPaper.Random.Draws
import ExamPaper.Template.Error

/-!
# Operations

The built-in operators that compute a text from their arguments, the state and the random source,
without changing the state. Random numbers and choices are drawn with one draw each, after all
arguments have been checked.

Mirrors `registry` and `op_int`, `op_float`, `op_floatrange`, `op_op`, `op_opexcept`, `op_date`,
`op_for`, `op_cases`, `op_id`, `op_quotecomma`, `op_calc` and `op_quote`. Integers are unbounded
here; `Proofs.Template.Checked` has every step of these operators with the bounds of words, and says
which of them break the program off.
-/

namespace ExamPaper

namespace Template

/-- A built-in operator that stores nothing. -/
inductive Operation where
  /-- A random integer from a minimum in steps up to a maximum. -/
  | int
  /-- A random float from a minimum up to a maximum, with some decimals. -/
  | float
  /-- A random float from a minimum in steps up to and without a maximum. -/
  | floatRange
  /-- One of the arguments. -/
  | choice
  /-- One of the arguments that are not excluded. -/
  | choiceExcept
  /-- Today's date. -/
  | date
  /-- A text several times over. -/
  | repetition
  /-- The text that goes with the first matching case. -/
  | cases
  /-- The argument itself. -/
  | identity
  /-- The arguments with escaped commas between them. -/
  | quoteComma
  /-- The value of a calculation. -/
  | calculation
  /-- A name made unique by the number of the question. -/
  | quote
  deriving DecidableEq, Repr

/-- The largest text that a repetition may make, in bytes. -/
def maxRepetition : Nat := 0x1000000

/-- The most decimals that a number can be written with. -/
def maxPlaces : Nat := 65535

/-- An integer of 64 bits with or without blanks around it. -/
def readInt (name value : String) : Except TemplateError Int :=
  match Text.int64? (Text.trim value) with
  | some n => .ok n
  | none => .error (.badNumber name value)

/-- A count with or without blanks around it. -/
def readCount (name value : String) : Except TemplateError Nat :=
  match Text.count? (Text.trim value) with
  | some n => .ok n
  | none => .error (.badNumber name value)

/-- A float with or without blanks around it. -/
def readFloat (name value : String) : Except TemplateError Float :=
  match Text.float? (Text.trim value) with
  | some x => .ok x
  | none => .error (.badNumber name value)

/-- The value with a number of decimals. -/
def printFixed (name : String) (places : Nat) (x : Float) : Except TemplateError String :=
  if maxPlaces < places then .error (.tooManyPlaces name places)
  else .ok (Decimal.fixed places x)

/-- The three bounds of a random integer. -/
structure IntRange where
  min : Int
  max : Int
  step : Int
  deriving DecidableEq, Repr

namespace IntRange

/-- Reads the bounds from the arguments; the step is one if it is not given. -/
def ofArgs : List String → Except TemplateError IntRange
  | [min, max] => do
    let min ← readInt "INT" min
    let max ← readInt "INT" max
    .ok { min, max, step := 1 }
  | [min, max, step] => do
    let min ← readInt "INT" min
    let max ← readInt "INT" max
    let step ← readInt "INT" step
    .ok { min, max, step }
  | args => .error (.arity "INT" "2 or 3" args.length)

/-- How many steps fit between the bounds. -/
def steps (r : IntRange) : Except TemplateError Nat :=
  if r.step ≤ 0 then .error (.badNumber "INT" (Int.repr r.step))
  else if r.max < r.min then .error (.emptyChoice "INT")
  else if fitsSigned (r.max - r.min) then .ok ((r.max - r.min) / r.step).toNat
  else .error (.badNumber "INT" (Int.repr r.min ++ ".." ++ Int.repr r.max))

end IntRange

/-- A random float: its bounds and its decimals. -/
structure FloatRange where
  min : Float
  max : Float
  places : Nat
  deriving DecidableEq, Repr

namespace FloatRange

/-- Reads the bounds and the decimals from the arguments; there are two decimals if their number is
not given. -/
def ofArgs : List String → Except TemplateError FloatRange
  | [min, max] => do
    let min ← readFloat "FLOAT" min
    let max ← readFloat "FLOAT" max
    .ok { min, max, places := 2 }
  | [min, max, places] => do
    let min ← readFloat "FLOAT" min
    let max ← readFloat "FLOAT" max
    let places ← readCount "FLOAT" places
    .ok { min, max, places }
  | args => .error (.arity "FLOAT" "2 or 3" args.length)

/-- Refuses bounds between which nothing can be drawn. -/
def check (r : FloatRange) : Except TemplateError Unit :=
  if !r.min.isFinite then .error (.badNumber "FLOAT" (Decimal.text r.min))
  else if !r.max.isFinite then .error (.badNumber "FLOAT" (Decimal.text r.max))
  else if r.max < r.min then .error (.emptyChoice "FLOAT")
  else if !(r.max - r.min).isFinite then
    .error (.badNumber "FLOAT" (Decimal.text r.min ++ ".." ++ Decimal.text r.max))
  else .ok ()

end FloatRange

/-- How many bytes a number as written has after its point. -/
def fractionSize (text : String) : Nat :=
  Text.utf8Size (((Text.trim text).toList.dropWhile (· ≠ '.')).drop 1)

/-- A random float in steps: its low end, its step, how many values there are, and the decimals. -/
structure FloatSteps where
  min : Float
  step : Float
  count : Nat
  places : Nat
  deriving DecidableEq, Repr

namespace FloatSteps

/-- Reads the bounds and the step; a value less than a billionth of a step below the maximum does
not count. -/
def ofTexts (minText maxText stepText : String) (places : Nat) :
    Except TemplateError FloatSteps := do
  let min ← readFloat "FLOATRANGE" minText
  let max ← readFloat "FLOATRANGE" maxText
  let step ← readFloat "FLOATRANGE" stepText
  if !min.isFinite then .error (.badNumber "FLOATRANGE" (Decimal.text min))
  else if !max.isFinite then .error (.badNumber "FLOATRANGE" (Decimal.text max))
  else if !step.isFinite || step <= 0.0 then .error (.badNumber "FLOATRANGE" stepText)
  else
    let count := Decimal.ceilCount ((max - min) / step - 1e-9)
    if count = 0 then .error (.emptyChoice "FLOATRANGE") else .ok { min, step, count, places }

/-- Reads the arguments; without a number of decimals there are as many as the step is written
with. -/
def ofArgs : List String → Except TemplateError FloatSteps
  | [min, max, step] => ofTexts min max step (fractionSize step)
  | [min, max, step, places] => do
    let places ← readCount "FLOATRANGE" places
    ofTexts min max step places
  | args => .error (.arity "FLOATRANGE" "3 or 4" args.length)

/-- The value after `k` steps. -/
def value (r : FloatSteps) (k : Nat) : Float := r.min + Float.ofNat k * r.step

end FloatSteps

/-- The arguments to choose from: those that are not among the excluded ones, whose number comes
first. -/
def choicesExcept : List String → Except TemplateError (List String)
  | [] => .error (.arity "OPEXCEPT" "at least 1" 0)
  | countText :: rest => do
    let count ← readCount "OPEXCEPT" countText
    if rest.length < count then
      let needed := count + 1
      if needed < wordLimit then
        .error (.arity "OPEXCEPT" ("at least " ++ Nat.repr needed) (rest.length + 1))
      else .error (.overflow "OPEXCEPT")
    else
      let excluded := rest.take count
      match (rest.drop count).filter fun value => !excluded.contains value with
      | [] => .error (.emptyChoice "OPEXCEPT")
      | values => .ok values

/-- A text several times over. -/
def repeated : List String → Except TemplateError String
  | [text, times] => do
    let n ← readInt "FOR" times
    if n < 0 || text.isEmpty then .ok ""
    else if text.utf8ByteSize * n.toNat ≤ maxRepetition then
      .ok (String.ofList (List.replicate n.toNat text.toList).flatten)
    else .error (.badNumber "FOR" times)
  | args => .error (.arity "FOR" "2" args.length)

/-- The text without blanks at its ends and without the quotes around it, if there are two. -/
def unquote (text : String) : List Char :=
  let cs := Text.trimChars text.toList
  match Text.dropPrefix? ['"'] cs with
  | none => cs
  | some inner => (Text.dropSuffix? ['"'] inner).getD cs

/-- The text of the first case that matches; a single text at the end matches everything. -/
def firstCase (input : List Char) : List String → String
  | [] => ""
  | [default] => default
  | matcher :: value :: rest => if unquote matcher = input then value else firstCase input rest

/-- One of several values. -/
def pick {ρ : Type} [Draws ρ] (name : String) (values : List String) (r : ρ) :
    Except TemplateError String × ρ :=
  match values with
  | [] => (.error (.emptyChoice name), r)
  | first :: rest =>
    let (k, r) := Draws.below (rest.length + 1) r
    (.ok ((first :: rest).getD k first), r)

namespace Operation

/-- The operation that a name stands for. -/
def ofName? : String → Option Operation
  | "INT" => some int
  | "FLOAT" => some float
  | "FLOATRANGE" => some floatRange
  | "OP" => some choice
  | "OPEXCEPT" => some choiceExcept
  | "DATE" => some date
  | "FOR" => some repetition
  | "CASES" => some cases
  | "ID" => some identity
  | "QUOTECOMMA" => some quoteComma
  | "CALC" => some calculation
  | "QUOTE" => some quote
  | _ => none

/-- The text of an operation, where `today` is the text of the date. -/
def run {ρ : Type} [Draws ρ] (op : Operation) (today : String) (s : State) (args : List String)
    (r : ρ) : Except TemplateError String × ρ :=
  match op with
  | int =>
    match IntRange.ofArgs args with
    | .error e => (.error e, r)
    | .ok range => match range.steps with
      | .error e => (.error e, r)
      | .ok steps =>
        let (k, r) := Draws.below (steps + 1) r
        (.ok (Int.repr (range.min + k * range.step)), r)
  | float =>
    match FloatRange.ofArgs args with
    | .error e => (.error e, r)
    | .ok range => match range.check with
      | .error e => (.error e, r)
      | .ok () =>
        let (x, r) := if range.min < range.max then Draws.within range.min range.max r
          else (range.min, r)
        (printFixed "FLOAT" range.places x, r)
  | floatRange =>
    match FloatSteps.ofArgs args with
    | .error e => (.error e, r)
    | .ok steps =>
      let (k, r) := Draws.below steps.count r
      (printFixed "FLOATRANGE" steps.places (steps.value k), r)
  | choice => pick "OP" args r
  | choiceExcept =>
    match choicesExcept args with
    | .error e => (.error e, r)
    | .ok values => pick "OPEXCEPT" values r
  | date => (.ok today, r)
  | repetition => (repeated args, r)
  | cases =>
    match args with
    | [] => (.error (.arity "CASES" "at least 1" 0), r)
    | input :: rest => (.ok (firstCase (unquote input) rest), r)
  | identity =>
    match args with
    | [value] => (.ok value, r)
    | args => (.error (.arity "ID" "1" args.length), r)
  | quoteComma => (.ok (String.intercalate "\\," args), r)
  | calculation =>
    match Calculator.evaluate args s with
    | .error e => (.error (.calculation e), r)
    | .ok x => (.ok x.text, r)
  | quote =>
    match args with
    | [name] => (.ok ("t((COUNTER))_" ++ name), r)
    | args => (.error (.arity "QUOTE" "1" args.length), r)

end Operation

end Template

end ExamPaper
