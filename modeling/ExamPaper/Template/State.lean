import ExamPaper.Names

/-!
# What a template sees

The variables that directives of a text have stored, and the metadata given with it: the fields of
the question or of the exam, the counter and the channel. Directives change the variables only.

Mirrors `RenderState`, whose names are in no order there and in order here.
-/

namespace ExamPaper

namespace Template

/-- The variables and the metadata that a template sees. -/
structure State where
  vars : NameMap String := ∅
  metadata : NameMap String := ∅
  deriving DecidableEq, Repr

namespace State

/-- The value of a name: that of the metadata, or else that of the variable. -/
def lookup? (s : State) (name : String) : Option String :=
  (s.metadata.get? name).or (s.vars.get? name)

/-- The state with a value in a variable. -/
def store (s : State) (name value : String) : State := { s with vars := s.vars.insert name value }

theorem get?_store (s : State) (name value other : String) :
    (s.store name value).vars.get? other = if other = name then some value else s.vars.get? other :=
  NameMap.get?_insert s.vars name other value

/-- The state with a value in the metadata. -/
def setMetadata (s : State) (name value : String) : State :=
  { s with metadata := s.metadata.insert name value }

end State

end Template

end ExamPaper
