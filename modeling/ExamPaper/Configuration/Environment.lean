import ExamPaper.File.Path
import ExamPaper.Names
import ExamPaper.Text.Alphanumeric

/-!
# Environment variables in paths

A path of a configuration may refer to variables of the environment and to the home directory:
`$NAME` or `${NAME}` stands for the value of a variable, `${NAME:-text}` for the text if there is
no such variable, `$$` for a dollar sign, and a tilde at the start, alone or before a slash, for the
home directory. Other dollar signs and tildes stay as they are.

Mirrors `home_dir` and `full`, which `expand_path` asks for the text of a path.
-/

namespace ExamPaper

/-- The variables of the environment. -/
structure Environment where
  entries : NameMap String := ∅
  /-- The home directory of the account, if it has one. -/
  accountHome : Option String := none
  deriving DecidableEq, Repr

namespace Environment

/-- The value of a variable. -/
def get? (env : Environment) (name : String) : Option String := env.entries.get? name

/-- The home directory: the one that the environment names or, if it names none, that of the
account. -/
def home? (env : Environment) : Option String :=
  ((env.get? "HOME").filter fun home => !home.isEmpty).or env.accountHome

/-- A character of the name of a variable. -/
def isNameChar (c : Char) : Bool := isAlphanumeric c || c == '_'

/-- What is between braces as a name and, after `:-`, the text that stands for a variable that is
not there. A name is not empty, so that `:-` at the start is part of it. -/
def splitDefault (cs : List Char) : List Char → List Char × Option (List Char)
  | ':' :: '-' :: rest => if cs.isEmpty then ([], none) else (cs.reverse, some rest)
  | c :: rest => splitDefault (c :: cs) rest
  | [] => (cs.reverse, none)

/-- The name of a variable and the text that stands for it where it is not there. -/
def nameAndDefault (inner : List Char) : String × Option String :=
  match splitDefault [] inner with
  | ([], _) => (String.ofList inner, none)
  | (name, text) => (String.ofList name, text.map String.ofList)

/-- A text with the variables in it replaced; none if one is not there. -/
def expandVariables (env : Environment) : Nat → List Char → Option (List Char)
  | 0, _ => none
  | _, [] => some []
  | n + 1, '$' :: '\x7b' :: cs =>
    if cs.contains '\x7d' then
      let (name, text) := nameAndDefault (cs.takeWhile (· ≠ '\x7d'))
      ((env.get? name).or text).bind fun value =>
        (expandVariables env n ((cs.dropWhile (· ≠ '\x7d')).drop 1)).map (value.toList ++ ·)
    else (expandVariables env n cs).map ('$' :: '\x7b' :: ·)
  | n + 1, '$' :: '$' :: cs => (expandVariables env n cs).map ('$' :: ·)
  | n + 1, '$' :: cs =>
    let name := cs.takeWhile isNameChar
    if name.isEmpty then (expandVariables env n cs).map ('$' :: ·)
    else (env.get? (String.ofList name)).bind fun value =>
      (expandVariables env n (cs.drop name.length)).map (value.toList ++ ·)
  | n + 1, c :: cs => (expandVariables env n cs).map (c :: ·)

/-- A text with the home directory in place of a tilde at its start. -/
def expandTilde (env : Environment) (cs : List Char) : List Char :=
  match env.home?, cs with
  | some home, ['~'] => home.toList
  | some home, '~' :: '/' :: rest => home.toList ++ '/' :: rest
  | _, cs => cs

/-- A path with variables and a tilde at its start replaced; none if a variable is not there. A
tilde that comes from a variable stays. -/
def expand? (env : Environment) (path : String) : Option Path :=
  let cs := path.toList
  (expandVariables env (cs.length + 1) cs).map fun expanded =>
    let tildeIsOwn := cs.head? == some '~' || expanded.head? != some '~'
    ⟨String.ofList (if tildeIsOwn then env.expandTilde expanded else expanded)⟩

end Environment

end ExamPaper
