import ExamPaper.Text.Blank
import ExamPaper.Text.Pieces

/-!
# Macro definitions

A macro has a name and a body, and it may have parameters. It is declared by a key, `NAME` or
`((NAME,param,...))`, and a body. A macro without parameters stands for its body whatever it is
applied to; one with parameters has each of them replaced in its body by an argument, one parameter
after another in the order of their declaration.

Mirrors `MacroDefinition` with `parse`, `name` and `apply`, whose replacements are those of
`replace` on the whole text.
-/

namespace ExamPaper

/-- A macro that a template may use. -/
inductive MacroDefinition where
  /-- Stands for its body, whatever it is applied to. -/
  | constant (name body : String)
  /-- Stands for its body with an argument in place of each parameter. -/
  | parametric (name : String) (params : List String) (body : String)
  deriving DecidableEq, Repr

/-- Why a macro cannot be declared or applied. -/
inductive MacroDefinitionError where
  /-- The key is neither a name nor a name with parameters. -/
  | badKey (key : String)
  /-- The body is a list or a mapping. -/
  | badBody (key : String)
  /-- The macros are neither a mapping nor a list of mappings. -/
  | badShape
  /-- The number of arguments is not that of the parameters. -/
  | arity (name : String) (expected got : Nat)
  deriving DecidableEq, Repr

namespace MacroDefinitionError

/-- The text that reports the error. -/
def message : MacroDefinitionError → String
  | badKey key => "invalid macro key '" ++ key ++ "': expected NAME or ((NAME,param,...))"
  | badBody key => "macro '" ++ key ++ "' must have a scalar body"
  | badShape => "macros must be a mapping or a list of single-key mappings"
  | arity name expected got =>
    "macro '" ++ name ++ "' expects " ++ Nat.repr expected ++ " arguments, got " ++ Nat.repr got

end MacroDefinitionError

namespace MacroDefinition

/-- The key without the markers around it; none if only the first of them is there. -/
def unwrapKey? (key : List Char) : Option (List Char) :=
  match Text.dropPrefix? ['(', '('] key with
  | none => some key
  | some rest => Text.dropSuffix? [')', ')'] rest

/-- The name and the parameters that the text of a key between its markers denotes. -/
def signature? (inner : List Char) : Option (String × List String) :=
  match (Text.splitAtChar ',' inner).map Text.trimChars with
  | [] => none
  | name :: params =>
    if name.isEmpty || name.any (fun c => c == '(' || c == ')') || params.any List.isEmpty then none
    else some (String.ofList name, params.map String.ofList)

/-- Reads a macro from its key and its body. -/
def parse (key body : String) : Except MacroDefinitionError MacroDefinition :=
  match (unwrapKey? (Text.trimChars key.toList)).bind signature? with
  | none => .error (.badKey key)
  | some (name, []) => .ok (.constant name body)
  | some (name, params) => .ok (.parametric name params body)

/-- The name of a macro. -/
def name : MacroDefinition → String
  | constant name _ => name
  | parametric name _ _ => name

/-- The body with each parameter replaced by its argument, one after another. -/
def substitute (params args : List String) (body : List Char) : List Char :=
  (params.zip args).foldl (fun body (param, arg) => Text.replaceAll param.toList arg.toList body)
    body

/-- What a macro stands for when it is applied to arguments. -/
def apply (m : MacroDefinition) (args : List String) : Except MacroDefinitionError String :=
  match m with
  | constant _ body => .ok body
  | parametric name params body =>
    if params.length = args.length then
      .ok (String.ofList (substitute params args body.toList))
    else .error (.arity name params.length args.length)

end MacroDefinition

end ExamPaper
