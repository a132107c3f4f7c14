import ExamPaper.Exam.Index
import ExamPaper.Template.Engine

/-!
# Rendering an exam

The text of each output channel: its beginning, the text of every question for the channel, its end,
and a line feed. Beginnings and ends see the metadata of the exam and a counter of zero; a question
sees its own fields, and the counter starts at one and goes on after every question that is no
scaffold. Variables do not outlive a question.

Mirrors `render_exam`, with `append` and `missing_channel`.
-/

namespace ExamPaper

namespace Rendering

open Template (Engine State)

variable {ρ : Type} [Draws ρ]

/-- What stands for a question that has no text in a channel; it is expanded like any text. -/
def placeholder (id title : String) : String :=
  "\n((COUNTER)): No " ++ id ++ " - DEBUG. Question: " ++ title ++ "\n\n"

/-- The text of a question for a channel, before it is expanded. -/
def channelText (q : Question) (id : String) : String :=
  (q.channel? id).getD (placeholder id q.title)

/-- The counter after a question. -/
def nextCounter (counter : Nat) (q : Question) : Nat :=
  if q.scaffold then counter else counter + 1

/-- The texts of a question in all channels. -/
def renderQuestion (e : Engine) (ids : List String) (counter : Nat) (q : Question) (r : ρ) :
    Except TemplateError (List String) × ρ :=
  e.render counter { metadata := q.fields } ids (ids.map (channelText q)) r

/-- The texts of questions in all channels, one row for each question. -/
def renderQuestions (e : Engine) (ids : List String) :
    Nat → List Question → ρ → Except TemplateError (List (List String)) × ρ
  | _, [], r => (.ok [], r)
  | counter, q :: qs, r =>
    match renderQuestion e ids counter q r with
    | (.error error, r) => (.error error, r)
    | (.ok row, r) =>
      match renderQuestions e ids (nextCounter counter q) qs r with
      | (.error error, r) => (.error error, r)
      | (.ok rows, r) => (.ok (row :: rows), r)

/-- The columns of rows, the texts of each put together, with a line feed at the end. -/
def columns (width : Nat) (rows : List (List String)) : List String :=
  (rows.foldl (List.zipWith (· ++ ·)) (List.replicate width "")).map (· ++ "\n")

/-- The texts of the output channels of an exam with the given questions. -/
def render (exam : ExamIndex) (today : String) (questions : List Question) (r : ρ) :
    Except TemplateError (List String) × ρ :=
  let e : Engine := { macros := exam.macros, today }
  let base : State := { metadata := exam.metadata }
  match e.render 0 base exam.ids (exam.channels.map (·.header)) r with
  | (.error error, r) => (.error error, r)
  | (.ok header, r) =>
    match renderQuestions e exam.ids 1 questions r with
    | (.error error, r) => (.error error, r)
    | (.ok rows, r) =>
      match e.render 0 base exam.ids (exam.channels.map (·.footer)) r with
      | (.error error, r) => (.error error, r)
      | (.ok footer, r) =>
        (.ok (columns exam.channels.length (header :: rows ++ [footer])), r)

end Rendering

end ExamPaper
