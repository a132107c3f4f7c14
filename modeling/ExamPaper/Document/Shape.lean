import ExamPaper.Document.Value
import ExamPaper.Text.Blank
import ExamPaper.Text.Extending
import ExamPaper.Text.Graphic

/-!
# The shape of a value

A text that shows the kind of a value and of all values in it, for reports on values of the wrong
kind: `Null`, `Number(3)`, `Sequence [String("a"), Number(1)]`.

Mirrors how `parse_entry` shows a key that is no text.
-/

namespace ExamPaper

namespace Document

/-- A character that a shape shows as it is. The others are shown by their numbers: blanks other
than the space, characters that are shown only together with the one before them, and those that
are not shown at all. -/
def isShown (c : Char) : Bool :=
  c == ' ' || (isGraphic c && !isBlank c && !isExtending c)

/-- One character of a quoted text. -/
def quotedChar (c : Char) : List Char :=
  if c = '"' then ['\\', '"']
  else if c = '\\' then ['\\', '\\']
  else if c = '\n' then ['\\', 'n']
  else if c = '\r' then ['\\', 'r']
  else if c = '\t' then ['\\', 't']
  else if c.toNat = 0 then ['\\', '0']
  else if isShown c then [c]
  else ['\\', 'u', '\x7b'] ++ Nat.toDigits 16 c.toNat ++ ['\x7d']

/-- A text in quotes, with escapes for what cannot be shown. -/
def quoted (s : String) : String :=
  String.ofList ('"' :: s.toList.flatMap quotedChar ++ ['"'])

/-- Texts one after another with a comma between them. -/
def commaSeparated (parts : List String) : String := String.intercalate ", " parts

mutual

/-- The kind of a value and of all values in it. -/
def shape : Value → String
  | .null => "Null"
  | .bool b => "Bool(" ++ (if b then "true" else "false") ++ ")"
  | .number n => "Number(" ++ n.text ++ ")"
  | .text s => "String(" ++ quoted s ++ ")"
  | .list items => "Sequence [" ++ commaSeparated (itemShapes items) ++ "]"
  | .mapping entries => "Mapping \x7b" ++ commaSeparated (entryShapes entries) ++ "\x7d"
  | .tagged tag v => "TaggedValue \x7b tag: !" ++ tag ++ ", value: " ++ shape v ++ " \x7d"

/-- A key of a mapping, whose kind is left out where its text shows it. -/
def keyShape : Value → String
  | .bool b => if b then "true" else "false"
  | .number n => n.text
  | .text s => quoted s
  | v => shape v

/-- The shapes of the items of a list. -/
def itemShapes : List Value → List String
  | [] => []
  | v :: vs => shape v :: itemShapes vs

/-- The shapes of the entries of a mapping. -/
def entryShapes : List (Value × Value) → List String
  | [] => []
  | (k, v) :: rest => (keyShape k ++ ": " ++ shape v) :: entryShapes rest

end

end Document

end ExamPaper
