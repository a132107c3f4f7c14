import ExamPaper.Ordered

/-!
# Maps and sets of names

A `NameMap` holds one value for each of its names, and a `NameSet` is a set of names; both keep
their names in order. The laws say what a look-up finds after an insertion.
-/

namespace ExamPaper

/-- A map from names to values, its entries in the order of their names. -/
structure NameMap (α : Type) where
  entries : List (String × α) := []
  deriving DecidableEq, Repr

namespace NameMap

variable {α : Type}

/-- The map without entries. -/
def empty : NameMap α := {}

instance : EmptyCollection (NameMap α) := ⟨empty⟩

/-- The value under a name. -/
def get? (m : NameMap α) (name : String) : Option α := m.entries.lookup name

/-- Whether there is a value under a name. -/
def contains (m : NameMap α) (name : String) : Bool := (m.get? name).isSome

/-- The map with `value` under `name`, in place of what was under that name. -/
def insert (m : NameMap α) (name : String) (value : α) : NameMap α :=
  ⟨Ordered.insert name value m.entries⟩

/-- The map of the given entries; of two with one name the later counts. -/
def ofList (entries : List (String × α)) : NameMap α :=
  entries.foldl (fun m (name, value) => m.insert name value) empty

/-- The names, in order. -/
def names (m : NameMap α) : List String := m.entries.map (·.1)

/-- How many names there are. -/
def size (m : NameMap α) : Nat := m.entries.length

@[simp] theorem get?_empty (name : String) : (empty : NameMap α).get? name = none := rfl

@[simp] theorem get?_insert_self (m : NameMap α) (name : String) (value : α) :
    (m.insert name value).get? name = some value :=
  Ordered.lookup_insert_self name value m.entries

theorem get?_insert_of_ne (m : NameMap α) {name other : String} (h : other ≠ name) (value : α) :
    (m.insert name value).get? other = m.get? other :=
  Ordered.lookup_insert_of_ne h value m.entries

theorem get?_insert (m : NameMap α) (name other : String) (value : α) :
    (m.insert name value).get? other = if other = name then some value else m.get? other := by
  split
  · rename_i h; subst h; exact get?_insert_self m other value
  · rename_i h; exact get?_insert_of_ne m h value

theorem contains_insert (m : NameMap α) (name other : String) (value : α) :
    (m.insert name value).contains other = (other == name || m.contains other) := by
  unfold contains
  rw [get?_insert]
  by_cases h : other = name
  · simp [h]
  · simp [h]

theorem contains_of_mem {m : NameMap α} {name : String} {value : α}
    (h : (name, value) ∈ m.entries) : m.contains name = true := by
  unfold contains get?
  cases hlookup : m.entries.lookup name with
  | none =>
    have hne := List.lookup_eq_none_iff.mp hlookup (name, value) h
    exact absurd hne (by simp)
  | some found => rfl

end NameMap

/-- A set of names, in order. -/
structure NameSet where
  names : List String := []
  deriving DecidableEq, Repr

namespace NameSet

/-- The names with `name` among them. -/
def insertName (name : String) : List String → List String
  | [] => [name]
  | other :: rest =>
    if name = other then other :: rest
    else if name < other then name :: other :: rest
    else other :: insertName name rest

/-- Whether a name is in the set. -/
def contains (s : NameSet) (name : String) : Bool := s.names.contains name

/-- The set with `name` in it. -/
def insert (s : NameSet) (name : String) : NameSet := ⟨insertName name s.names⟩

/-- The set of the given names. -/
def ofList (names : List String) : NameSet := names.foldl insert {}

theorem mem_insertName {name other : String} {ns : List String} :
    other ∈ insertName name ns ↔ other = name ∨ other ∈ ns := by
  induction ns with
  | nil => simp [insertName]
  | cons n ns ih =>
    simp only [insertName]
    split
    · rename_i h
      subst h
      simp
    · split
      · simp
      · simp only [List.mem_cons, ih]
        grind

theorem contains_insert (s : NameSet) (name other : String) :
    (s.insert name).contains other = (other == name || s.contains other) := by
  rw [Bool.eq_iff_iff]
  simp [contains, insert, mem_insertName]

end NameSet

end ExamPaper
