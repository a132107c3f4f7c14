import ExamPaper.Document.Node

/-!
# Reading documents

The values that the documents of a text denote. A name stands for the node that has it; a text with
references may denote a value much larger than itself, so how deep collections lie within each other
and how often references are followed are limited. A mapping must not have a key twice.

Mirrors what `parse_questions`, `parse_exam` and `from_yaml` ask of their reader of YAML. They take
it as one of the `Readers`; this module and those it imports are the reader that is run.
-/

namespace ExamPaper

namespace Document

/-! ## Numbers for names

A name may be given again to a later node. The number of a name is how many names there are before
the node has it, so that a name given again may share its number with the next new name, and a
reference to a number leads to the last node that has it. -/

/-- The numbers of the names so far. -/
structure Numbering where
  numbers : List (List Char × Nat) := []

namespace Numbering

/-- How many names have a number. -/
def size (s : Numbering) : Nat := s.numbers.length

/-- The number under a name. -/
def get? (s : Numbering) (name : List Char) : Option Nat := s.numbers.lookup name

/-- Gives a name a number. -/
def add (s : Numbering) (name : List Char) : Nat × Numbering :=
  (s.size, ⟨(name, s.size) :: s.numbers.filter fun (other, _) => other != name⟩)

/-- Gives the name of a node, if it has one, a number. -/
def addMarks (s : Numbering) (m : Marks (List Char)) : Marks Nat × Numbering :=
  match m.name with
  | none => ({ tag := m.tag }, s)
  | some name =>
    let (number, s) := s.add name
    ({ name := some number, tag := m.tag }, s)

end Numbering

mutual

/-- The node with numbers for its names; none if a reference leads to no node before it. -/
def numbered (s : Numbering) : NamedNode → Option (Node Nat × Numbering)
  | .reference name => (s.get? name).map fun number => (.reference number, s)
  | .scalar m text plain =>
    let (m, s) := s.addMarks m
    some (.scalar m text plain, s)
  | .list m items =>
    let (m, s) := s.addMarks m
    (numberedItems s items).map fun (items, s) => (.list m items, s)
  | .mapping m entries =>
    let (m, s) := s.addMarks m
    (numberedEntries s entries).map fun (entries, s) => (.mapping m entries, s)

/-- The items of a list with numbers for their names. -/
def numberedItems (s : Numbering) : List NamedNode → Option (List (Node Nat) × Numbering)
  | [] => some ([], s)
  | item :: items =>
    (numbered s item).bind fun (item, s) =>
      (numberedItems s items).map fun (items, s) => (item :: items, s)

/-- The entries of a mapping with numbers for their names. -/
def numberedEntries (s : Numbering) :
    List (NamedNode × NamedNode) → Option (List (Node Nat × Node Nat) × Numbering)
  | [] => some ([], s)
  | (key, value) :: entries =>
    (numbered s key).bind fun (key, s) =>
      (numbered s value).bind fun (value, s) =>
        (numberedEntries s entries).map fun (entries, s) => ((key, value) :: entries, s)

end

/-- The nodes under their numbers, later ones first. -/
abbrev Targets := List (Nat × Node Nat)

/-- The targets with a node that has these marks. -/
def Targets.add (targets : Targets) (m : Marks Nat) (node : Node Nat) : Targets :=
  match m.name with
  | some number => (number, node) :: targets
  | none => targets

mutual

/-- Puts a node and the nodes in it before the targets so far, each under its number. -/
def collect (targets : Targets) : Node Nat → Targets
  | .reference _ => targets
  | .scalar m text plain => targets.add m (.scalar m text plain)
  | .list m items => collectItems (targets.add m (.list m items)) items
  | .mapping m entries => collectEntries (targets.add m (.mapping m entries)) entries

/-- Puts the nodes of a list before the targets so far. -/
def collectItems (targets : Targets) : List (Node Nat) → Targets
  | [] => targets
  | item :: items => collectItems (collect targets item) items

/-- Puts the nodes of a mapping before the targets so far. -/
def collectEntries (targets : Targets) : List (Node Nat × Node Nat) → Targets
  | [] => targets
  | (key, value) :: entries => collectEntries (collect (collect targets key) value) entries

end

mutual

/-- How many marks it takes to write a node, where a collection has one at each end. -/
def marksOf : Node Nat → Nat
  | .reference _ | .scalar .. => 1
  | .list _ items => 2 + marksOfItems items
  | .mapping _ entries => 2 + marksOfEntries entries

/-- How many marks it takes to write the items of a list. -/
def marksOfItems : List (Node Nat) → Nat
  | [] => 0
  | item :: items => marksOf item + marksOfItems items

/-- How many marks it takes to write the entries of a mapping. -/
def marksOfEntries : List (Node Nat × Node Nat) → Nat
  | [] => 0
  | (key, value) :: entries => marksOf key + marksOf value + marksOfEntries entries

end

/-! ## Values of nodes -/

/-- The tag of a standard kind of values. -/
def standardTag (kind : String) : TagBytes := bytes ("tag:yaml.org,2002:" ++ kind).toList

/-- What a plain scalar without a tag denotes. -/
def plainValue? (text : List Char) : Option Value :=
  match resolvePlain text with
  | .value v => some v
  | .outOfRange => none

/-- What a scalar denotes under a tag that is none of the program's own: the tags of truth values,
numbers and null ask for such a value, and any other makes a text of the scalar. -/
def standardValue? (tag : TagBytes) (text : List Char) : Option Value :=
  if tag = standardTag "bool" then (bool? (String.ofList text)).map .bool
  else if tag = standardTag "int" then
    match (whole? text).bind wholeResolution? with
    | some (.value v) => some v
    | _ => none
  else if tag = standardTag "float" then (float? text).map fun x => .number (.float x)
  else if tag = standardTag "null" then
    if isNullWord (String.ofList text) then some .null else none
  else some (.text (String.ofList text))

/-- What the tag of a node says. -/
inductive TagKind where
  | none
  /-- A tag of the program's own, without the mark before it. -/
  | own (tag : String)
  | standard (tag : TagBytes)

/-- Tells what a tag says. Tags with a mark before them are the program's own, also the mark alone;
one that is no text says nothing. -/
def tagKind (tag : Option TagBytes) : TagKind :=
  match tag with
  | .none => .none
  | some [] => .standard []
  | some (first :: rest) =>
    if first ≠ '!'.toUInt8 then .standard (first :: rest)
    else if rest.isEmpty then .own "!"
    else match String.fromUTF8? rest.toByteArray with
      | some tag => .own tag
      | .none => .none

/-- The value under the tag of its node. -/
def withTag (tag : Option TagBytes) (v : Value) : Value :=
  match tagKind tag with
  | .own tag => v.mark tag
  | _ => v

/-- What a scalar denotes. -/
def scalarValue? (tag : Option TagBytes) (text : List Char) (plain : Bool) : Option Value :=
  match tagKind tag with
  | .standard tag => standardValue? tag text
  | _ =>
    (if plain then plainValue? text else some (.text (String.ofList text))).map (withTag tag)

/-- The values of the items of a list, of which `read` gives each; the number counts how often
references may still be followed. -/
def readItems (read : Node Nat → Nat → Option (Value × Nat)) :
    List (Node Nat) → Nat → Option (List Value × Nat)
  | [], left => some ([], left)
  | item :: items, left =>
    (read item left).bind fun (v, left) =>
      (readItems read items left).map fun (vs, left) => (v :: vs, left)

/-- The entries of a mapping after `seen`, latest first, of which `read` gives each part; none if a
key is there twice. -/
def readEntries (read : Node Nat → Nat → Option (Value × Nat)) :
    Entries → List (Node Nat × Node Nat) → Nat → Option (Entries × Nat)
  | seen, [], left => some (seen.reverse, left)
  | seen, (key, value) :: entries, left =>
    (read key left).bind fun (k, left) =>
      if seen.containsKey k then none
      else (read value left).bind fun (v, left) => readEntries read ((k, v) :: seen) entries left

/-- The node that a reference leads to; the number counts how often references may still be
followed. -/
def follow? (targets : Targets) : Node Nat → Nat → Option (Node Nat × Nat)
  | .reference _, 0 => none
  | .reference number, left + 1 => (targets.lookup number).map fun node => (node, left)
  | node, left => some (node, left)

/-- The value of a node in which collections lie at most `depth` deep within each other. -/
def value? (targets : Targets) (depth : Nat) (node : Node Nat) (left : Nat) :
    Option (Value × Nat) :=
  match depth, follow? targets node left with
  | _, none => none
  | _, some (.reference _, _) => none
  | _, some (.scalar m text plain, left) =>
    (scalarValue? m.tag text plain).map fun v => (v, left)
  | 0, _ => none
  | depth + 1, some (.list m items, left) =>
    (readItems (value? targets depth) items left).map fun (vs, left) =>
      (withTag m.tag (.list vs), left)
  | depth + 1, some (.mapping m entries, left) =>
    (readEntries (value? targets depth) [] entries left).map fun (es, left) =>
      (withTag m.tag (.mapping es), left)

/-- How deep collections may lie within each other. -/
def depthLimit : Nat := 128

/-- The value of a document with this root; none if it denotes none. -/
def rootValue? (root : NamedNode) : Option Value :=
  match numbered {} root with
  | none => none
  | some (root, _) =>
    (value? (collect [] root) depthLimit root (100 * marksOf root)).map (·.1)

/-- The documents of a text up to and including the first that denotes no value. -/
def firstValues : List (Option NamedNode) → List (Option Value)
  | [] => []
  | root :: roots =>
    match root.bind rootValue? with
    | none => [none]
    | some v => some v :: firstValues roots

/-- The values of the documents of a text up to the first that denotes none. A text without
documents is a single null. -/
def values (text : String) : List (Option Value) :=
  match roots text with
  | [] => [some .null]
  | rs => firstValues rs

/-- The value of a text that is a single document. -/
def parse? (text : String) : Option Value :=
  match values text with
  | [v] => v
  | _ => none

end Document

end ExamPaper
