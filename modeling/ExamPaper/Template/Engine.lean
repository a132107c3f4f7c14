import ExamPaper.Macro.Table
import ExamPaper.Template.Arguments
import ExamPaper.Template.Operation
import ExamPaper.Template.Scanner

/-!
# Expanding templates

An engine knows the macros of an exam. To expand a text, its directives are replaced one after
another, each by the text that its name and arguments stand for, until none is left; the escapes of
what remains are then removed. A name stands for the metadata entry of that name, or else for the
variable, or else for the macro, or else for the built-in operator. The directive `DNL` removes
itself with the rest of its line.

Whether an expansion succeeds or fails, it leaves the variables and the random source as they are
after the last directive.

Mirrors `Engine` with `dispatch`, `expand` and `render`; the operators `op_save`, `op_var`,
`op_varint` and `op_varfloat`, which apply names themselves, are cases of `dispatch`. State and
random source are given and returned where they are changed in place. A text that breaks the program
off ends with an error of its own (`TemplateError.breaksOff`).
-/

namespace ExamPaper

namespace Template

/-- The error of a directive without an end, which shows the start of the text from its marker
on. -/
def unterminatedError (text : List Char) : TemplateError :=
  .unterminated (String.ofList (text.take 40))

/-- What expands templates: the macros, the text of today's date, and how many directives a text
may have expanded before the expansion is given up. -/
structure Engine where
  macros : MacroTable := ∅
  today : String := ""
  maxSteps : Nat := 100000

/-- What an evaluation leaves behind. -/
structure Outcome (ρ α : Type) where
  result : Except TemplateError α
  state : State
  rng : ρ

namespace Engine

variable {ρ : Type} [Draws ρ]

/-- The state and the text after a value was computed for a variable: `reply` if there is one. -/
def storeResult (name reply : String) (o : Outcome ρ String) : Outcome ρ String :=
  match o.result with
  | .error e => { o with result := .error e }
  | .ok value => { o with result := .ok reply, state := o.state.store name value }

/-- The text that a name applied to arguments stands for. The operators that store a value compute
it by applying the name among their arguments to the arguments after it. -/
def dispatch (e : Engine) (name : String) (args : List String) (s : State) (r : ρ) :
    Outcome ρ String :=
  match s.lookup? name with
  | some value => ⟨.ok value, s, r⟩
  | none =>
    match e.macros.get? name with
    | some m => ⟨(m.apply args).mapError .definition, s, r⟩
    | none =>
      match name, args with
      | "SAVE", var :: key :: rest => storeResult var "" (dispatch e key rest s r)
      | "SAVE", args => ⟨.error (.arity "SAVE" "at least 2" args.length), s, r⟩
      | "VAR", var :: key :: rest =>
        storeResult var ("((" ++ var ++ "))") (dispatch e key rest s r)
      | "VAR", args => ⟨.error (.arity "VAR" "at least 2" args.length), s, r⟩
      | "VARINT", var :: rest =>
        storeResult var ("((" ++ var ++ "))") (dispatch e "INT" rest s r)
      | "VARINT", [] => ⟨.error (.arity "VARINT" "at least 1" 0), s, r⟩
      | "VARFLOAT", var :: rest =>
        storeResult var ("((" ++ var ++ "))") (dispatch e "FLOAT" rest s r)
      | "VARFLOAT", [] => ⟨.error (.arity "VARFLOAT" "at least 1" 0), s, r⟩
      | name, args =>
        match Operation.ofName? name with
        | none => ⟨.error (.unknown name), s, r⟩
        | some op =>
          let (result, r) := op.run e.today s args r
          ⟨result, s, r⟩

/-- The name of a directive and its arguments. -/
def splitDirective (body : List Char) : String × List String :=
  match arguments body with
  | [] => ("", [])
  | name :: args => (String.ofList name, args.map String.ofList)

/-- Expands the directives from a scanner's position on, at most the given number of them. -/
def expandFrom (e : Engine) : Nat → Scanner → State → ρ → Outcome ρ (List Char)
  | 0, _, s, r => ⟨.error (.expansionLimit e.maxSteps), s, r⟩
  | steps + 1, scanner, s, r =>
    match scanner.next with
    | .finished text => ⟨.ok (unescape text), s, r⟩
    | .unterminated text => ⟨.error (unterminatedError text), s, r⟩
    | .directive body scanner =>
      let (name, args) := splitDirective body
      if name = "DNL" then expandFrom e steps scanner.dropLine s r
      else
        let o := dispatch e name args s r
        match o.result with
        | .error error => ⟨.error error, o.state, o.rng⟩
        | .ok text => expandFrom e steps (scanner.resume text.toList) o.state o.rng

/-- Expands a text. -/
def expand (e : Engine) (text : String) (s : State) (r : ρ) : Outcome ρ String :=
  let o := expandFrom e e.maxSteps (.ofText text.toList) s r
  { o with result := o.result.map String.ofList }

/-- The state in which the text of a channel is expanded: `FILE` is the channel, and what the
metadata held under its name is kept as its raw text. -/
def enterChannel (s : State) (id : String) : State :=
  let s := s.setMetadata "FILE" id
  match s.metadata.get? id with
  | some raw => s.setMetadata (id ++ "_raw") raw
  | none => s

/-- Expands one text after another, each for its channel; what a channel produced takes the place
of its text in the metadata, so that later channels see it. -/
def renderFrom (e : Engine) : List (String × String) → State → ρ →
    Except TemplateError (List String) × ρ
  | [], _, r => (.ok [], r)
  | (id, text) :: rest, s, r =>
    let o := expand e text (enterChannel s id) r
    match o.result with
    | .error error => (.error error, o.rng)
    | .ok output =>
      match renderFrom e rest (o.state.setMetadata id output) o.rng with
      | (.error error, r) => (.error error, r)
      | (.ok outputs, r) => (.ok (output :: outputs), r)

/-- Expands the texts of all channels with the number `counter` in the metadata. -/
def render (e : Engine) (counter : Nat) (base : State) (channels texts : List String) (r : ρ) :
    Except TemplateError (List String) × ρ :=
  renderFrom e (channels.zip texts) (base.setMetadata "COUNTER" (Nat.repr counter)) r

end Engine

end Template

end ExamPaper
