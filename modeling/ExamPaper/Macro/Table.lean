import ExamPaper.Document.Shape
import ExamPaper.Macro.Definition
import ExamPaper.Names

/-!
# Macro tables

The macros of an exam by their names. A table is read from a mapping, or from a list of mappings,
whose entries are taken one after another; of two definitions of one name the later counts.

Mirrors `MacroTable` with `from_value`, `insert` and `get`, and `parse_entry`. The names are in no
order there and in order here.
-/

namespace ExamPaper

/-- Macros by name. -/
abbrev MacroTable := NameMap MacroDefinition

namespace MacroTable

/-- The table with one more macro, in place of one of the same name. -/
def add (table : MacroTable) (m : MacroDefinition) : MacroTable := table.insert m.name m

/-- Reads the macro that an entry declares. -/
def entry (key body : Value) : Except MacroDefinitionError MacroDefinition :=
  match key with
  | .text key =>
    match body with
    | .null => MacroDefinition.parse key ""
    | body => match body.scalarText? with
      | some body => MacroDefinition.parse key body
      | none => .error (.badBody key)
  | key => .error (.badKey (Document.shape key))

/-- Adds the macros of a mapping to a table, in order. -/
def addEntries (table : MacroTable) : Entries → Except MacroDefinitionError MacroTable
  | [] => .ok table
  | (key, body) :: rest =>
    match entry key body with
    | .error e => .error e
    | .ok m => addEntries (table.add m) rest

/-- Adds the macros of a list of mappings to a table, in order. -/
def addItems (table : MacroTable) : List Value → Except MacroDefinitionError MacroTable
  | [] => .ok table
  | .mapping entries :: rest =>
    match addEntries table entries with
    | .error e => .error e
    | .ok table => addItems table rest
  | _ :: _ => .error .badShape

/-- Reads a table of macros; null is the empty one. -/
def ofValue : Value → Except MacroDefinitionError MacroTable
  | .null => .ok ∅
  | .mapping entries => addEntries ∅ entries
  | .list items => addItems ∅ items
  | _ => .error .badShape

end MacroTable

end ExamPaper
