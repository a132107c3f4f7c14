import ExamPaper.Macro.Definition
import ExamPaper.Template.Calculator

/-!
# Template errors

Why a template cannot be expanded, and the text that reports it.

Mirrors `MacroError`, with two errors more for what breaks the program off: a number printed with
more decimals than it can print, and a count of arguments that no word can hold.
-/

namespace ExamPaper

/-- Why a template cannot be expanded. -/
inductive TemplateError where
  /-- A directive without an end; the start of the text from its marker on. -/
  | unterminated (snippet : String)
  /-- A name that stands for nothing. -/
  | unknown (name : String)
  /-- A macro applied to the wrong number of arguments. -/
  | definition (e : MacroDefinitionError)
  /-- An operator applied to the wrong number of arguments. -/
  | arity (name expected : String) (got : Nat)
  /-- An argument that is no number, or a number that does not do. -/
  | badNumber (name value : String)
  /-- A choice among nothing. -/
  | emptyChoice (name : String)
  /-- A calculation without a result. -/
  | calculation (e : Calculator.Failure)
  /-- More directives than the limit allows. -/
  | expansionLimit (limit : Nat)
  /-- More decimals than a number can be written with; such a run is broken off. -/
  | tooManyPlaces (name : String) (places : Nat)
  /-- A number of arguments that no word can hold; such a run is broken off. -/
  | overflow (name : String)
  deriving DecidableEq, Repr

namespace TemplateError

/-- The text that reports the error. -/
def message : TemplateError → String
  | unterminated snippet => "directive opened and never closed: '" ++ snippet ++ "'"
  | unknown name => "unknown macro or operator '" ++ name ++ "'"
  | definition e => e.message
  | arity name expected got =>
    name ++ " expects " ++ expected ++ " arguments, got " ++ Nat.repr got
  | badNumber name value => name ++ ": '" ++ value ++ "' is not a valid number"
  | emptyChoice name => name ++ ": nothing to choose from"
  | calculation e => "CALC: " ++ e.message
  | expansionLimit limit =>
    "expansion did not finish after " ++ Nat.repr limit ++ " steps (self-referencing macro?)"
  | tooManyPlaces name places => name ++ ": " ++ Nat.repr places ++ " decimals are too many"
  | overflow name => name ++ ": attempt to add with overflow"

/-- Whether a run is broken off at the error, without a report. -/
def breaksOff : TemplateError → Bool
  | tooManyPlaces _ _ => true
  | overflow _ => true
  | _ => false

end TemplateError

end ExamPaper
