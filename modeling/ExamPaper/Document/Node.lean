import ExamPaper.Document.Token

/-!
# Nodes of a document

The tokens of a text as nodes: references to nodes with a name, scalars, lists and mappings. A
place where a node may stand and none does holds a scalar without characters. A list in a mapping
may have the indentation of its key; such a list has no opening and no closing token.

Nodes are generic in their names, which are texts at first.
-/

namespace ExamPaper

namespace Document

/-- What may stand before a node: a name for it, and its tag. -/
structure Marks (ρ : Type) where
  name : Option ρ := none
  tag : Option TagBytes := none
  deriving Repr

/-- A node of a document. -/
inductive Node (ρ : Type) where
  /-- The node with a name, once more. -/
  | reference (name : ρ)
  | scalar (marks : Marks ρ) (text : List Char) (plain : Bool)
  | list (marks : Marks ρ) (items : List (Node ρ))
  | mapping (marks : Marks ρ) (entries : List (Node ρ × Node ρ))
  deriving Repr

/-- The node that is not written. -/
def Node.blank {ρ : Type} (marks : Marks ρ) : Node ρ := .scalar marks [] true

/-- A node whose names are texts. -/
abbrev NamedNode := Node (List Char)

/-- What the handles of tags stand for. -/
abbrev Handles := List (List Char × TagBytes)

/-- The handles of every document. -/
def standardHandles : Handles :=
  [(['!'], bytes ['!']), (['!', '!'], bytes "tag:yaml.org,2002:".toList)]

/-- The tag with its handle resolved; none if nothing is known of the handle. -/
def TagName.resolve? (handles : Handles) (t : TagName) : Option TagBytes :=
  if t.handle.isEmpty then some t.suffix
  else (handles.lookup t.handle).map (· ++ t.suffix)

/-- Reads the marks of a node, a name and a tag in either order. -/
def marks (handles : Handles) : List Token → Option (Marks (List Char) × List Token)
  | .anchor name :: .tag t :: ts =>
    (t.resolve? handles).map fun tag => ({ name := some name, tag := some tag }, ts)
  | .tag t :: .anchor name :: ts =>
    (t.resolve? handles).map fun tag => ({ name := some name, tag := some tag }, ts)
  | .anchor name :: ts => some ({ name := some name }, ts)
  | .tag t :: ts => (t.resolve? handles).map fun tag => ({ tag := some tag }, ts)
  | ts => some ({}, ts)

namespace Token

/-- Whether the token shows that an item of a block list is not written. -/
def endsItem : Token → Bool
  | item | closeBlock => true
  | _ => false

/-- Whether the token shows that an item of a list with the indentation of its key is not
written. -/
def endsAlignedItem : Token → Bool
  | item | key | value | closeBlock => true
  | _ => false

/-- Whether the token shows that a part of an entry of a block mapping is not written. -/
def endsEntry : Token → Bool
  | key | value | closeBlock => true
  | _ => false

/-- Whether the token shows that a part of a pair in brackets is not written. -/
def endsPair : Token → Bool
  | comma | closeList => true
  | _ => false

/-- Whether the token shows that a value in braces is not written. -/
def endsBraced : Token → Bool
  | comma | closeMapping => true
  | _ => false

/-- Whether the token shows that a key in braces is not written. -/
def endsBracedKey : Token → Bool
  | value | comma | closeMapping => true
  | _ => false

/-- Whether the token shows that a document is not written. -/
def endsDocument : Token → Bool
  | documentStart | documentEnd | directive _ | finish => true
  | _ => false

/-- Whether the token belongs to what stands before a document. -/
def announcesDocument : Token → Bool
  | documentStart | directive _ => true
  | _ => false

end Token

/-- Where a node stands. -/
inductive Place where
  /-- Within brackets or braces. -/
  | flow
  /-- In a block. -/
  | block
  /-- In a block mapping, where a list may have the indentation of its key. -/
  | entry
  deriving DecidableEq

mutual

/-- Reads the node that comes next. -/
def node (handles : Handles) (place : Place) :
    Nat → List Token → Option (NamedNode × List Token)
  | 0, _ => none
  | _ + 1, .reference name :: ts => some (.reference name, ts)
  | n + 1, ts =>
    match marks handles ts with
    | none => none
    | some (m, ts) =>
      match ts with
      | .scalar text plain :: ts => some (.scalar m text plain, ts)
      | .openList :: .closeList :: ts => some (.list m [], ts)
      | .openList :: ts => (listItems handles n ts).map fun (items, ts) => (.list m items, ts)
      | .openMapping :: .closeMapping :: ts => some (.mapping m [], ts)
      | .openMapping :: ts =>
        (bracedEntries handles n ts).map fun (entries, ts) => (.mapping m entries, ts)
      | ts =>
        let block? : Option (Option (NamedNode × List Token)) :=
          match place, ts with
          | .entry, .item :: _ =>
            some ((alignedItems handles n ts).map fun (items, ts) => (.list m items, ts))
          | .flow, _ => none
          | _, .openBlockList :: ts =>
            some ((blockItems handles n ts).map fun (items, ts) => (.list m items, ts))
          | _, .openBlockMapping :: ts =>
            some ((blockEntries handles n ts).map fun (entries, ts) => (.mapping m entries, ts))
          | _, _ => none
        match block? with
        | some r => r
        | none => if m.name.isNone && m.tag.isNone then none else some (.blank m, ts)

/-- Reads the node that comes next, unless the next token shows that it is not written. -/
def nodeUnless (ends : Token → Bool) (handles : Handles) (place : Place) :
    Nat → List Token → Option (NamedNode × List Token)
  | 0, _ => none
  | n + 1, ts =>
    match ts with
    | [] => none
    | t :: _ => if ends t then some (.blank {}, ts) else node handles place n ts

/-- Reads the items of a block list and its closing. -/
def blockItems (handles : Handles) : Nat → List Token → Option (List NamedNode × List Token)
  | 0, _ => none
  | n + 1, ts =>
    match ts with
    | .closeBlock :: ts => some ([], ts)
    | .item :: ts => do
      let (item, ts) ← nodeUnless Token.endsItem handles .block n ts
      let (items, ts) ← blockItems handles n ts
      some (item :: items, ts)
    | _ => none

/-- Reads the items of a list with the indentation of its key. -/
def alignedItems (handles : Handles) : Nat → List Token → Option (List NamedNode × List Token)
  | 0, _ => none
  | n + 1, ts =>
    match ts with
    | .item :: ts => do
      let (item, ts) ← nodeUnless Token.endsAlignedItem handles .block n ts
      let (items, ts) ← alignedItems handles n ts
      some (item :: items, ts)
    | ts => some ([], ts)

/-- Reads the entries of a block mapping and its closing. -/
def blockEntries (handles : Handles) :
    Nat → List Token → Option (List (NamedNode × NamedNode) × List Token)
  | 0, _ => none
  | n + 1, ts =>
    match ts with
    | .closeBlock :: ts => some ([], ts)
    | .key :: ts => do
      let (key, ts) ← nodeUnless Token.endsEntry handles .entry n ts
      let (value, ts) ← valueUnless Token.endsEntry handles .entry n ts
      let (entries, ts) ← blockEntries handles n ts
      some ((key, value) :: entries, ts)
    | _ => none

/-- Reads the value of an entry, if there is one. -/
def valueUnless (ends : Token → Bool) (handles : Handles) (place : Place) :
    Nat → List Token → Option (NamedNode × List Token)
  | 0, _ => none
  | n + 1, ts =>
    match ts with
    | .value :: ts => nodeUnless ends handles place n ts
    | ts => some (.blank {}, ts)

/-- Reads one or more items in brackets, up to the closing bracket. -/
def listItems (handles : Handles) : Nat → List Token → Option (List NamedNode × List Token)
  | 0, _ => none
  | n + 1, ts => do
    let (item, ts) ← listItem handles n ts
    match ts with
    | .closeList :: ts | .comma :: .closeList :: ts => some ([item], ts)
    | .comma :: ts =>
      let (items, ts) ← listItems handles n ts
      some (item :: items, ts)
    | _ => none

/-- Reads an item in brackets. A key makes it a mapping of a single pair; where the key is not
written, the token that shows it is passed over. -/
def listItem (handles : Handles) : Nat → List Token → Option (NamedNode × List Token)
  | 0, _ => none
  | n + 1, ts =>
    match ts with
    | .key :: ts => do
      let (key, ts) ← match ts with
        | .value :: ts | .comma :: ts | .closeList :: ts => some (.blank {}, ts)
        | ts => node handles .flow n ts
      let (value, ts) ← valueUnless Token.endsPair handles .flow n ts
      some (.mapping {} [(key, value)], ts)
    | ts => node handles .flow n ts

/-- Reads one or more entries in braces, up to the closing brace. -/
def bracedEntries (handles : Handles) :
    Nat → List Token → Option (List (NamedNode × NamedNode) × List Token)
  | 0, _ => none
  | n + 1, ts => do
    let (entry, ts) ← bracedEntry handles n ts
    match ts with
    | .closeMapping :: ts | .comma :: .closeMapping :: ts => some ([entry], ts)
    | .comma :: ts =>
      let (entries, ts) ← bracedEntries handles n ts
      some (entry :: entries, ts)
    | _ => none

/-- Reads an entry in braces; a node alone is a key. -/
def bracedEntry (handles : Handles) :
    Nat → List Token → Option ((NamedNode × NamedNode) × List Token)
  | 0, _ => none
  | n + 1, ts =>
    match ts with
    | .key :: ts => do
      let (key, ts) ← nodeUnless Token.endsBracedKey handles .flow n ts
      let (value, ts) ← valueUnless Token.endsBraced handles .flow n ts
      some ((key, value), ts)
    | ts => do
      let (key, ts) ← node handles .flow n ts
      some ((key, .blank {}), ts)

end

/-- Reads the directives before a document, after those that said `version` and `named`: what the
handles of the document stand for. -/
def readDirectives (version : Bool) (named : Handles) :
    List Token → Option (Handles × List Token)
  | .directive (.version major minor) :: ts =>
    if version || major != 1 || (minor != 1 && minor != 2) then none
    else readDirectives true named ts
  | .directive (.handle name start) :: ts =>
    if (named.lookup name).isSome then none
    else readDirectives version ((name, start) :: named) ts
  | ts => some (named ++ standardHandles, ts)

/-- The tokens after the marks that end documents. -/
def dropDocumentEnds : List Token → List Token
  | .documentEnd :: ts => dropDocumentEnds ts
  | ts => ts

/-- Reads a document; only the first one may lack the mark before it. -/
def readDocument (first : Bool) (fuel : Nat) (ts : List Token) : Option (NamedNode × List Token) :=
  if first && !ts.head?.any Token.announcesDocument then node standardHandles .block fuel ts
  else do
    let (handles, ts) ← readDirectives false [] ts
    match ts with
    | .documentStart :: ts => nodeUnless Token.endsDocument handles .block fuel ts
    | _ => none

/-- The documents of a text up to the first that cannot be read, which is none. -/
def readDocuments (fuel : Nat) : Nat → Bool → List Token → List (Option NamedNode)
  | 0, _, _ => []
  | n + 1, first, ts =>
    let ts := if first then ts else dropDocumentEnds ts
    match ts with
    | [.finish] => []
    | ts =>
      match readDocument first fuel ts with
      | none => [none]
      | some (_, .failure :: _) => [none]
      | some (root, .documentEnd :: ts) => some root :: readDocuments fuel n false ts
      | some (root, ts) => some root :: readDocuments fuel n false ts

/-- The root nodes of the documents of a text up to the first that cannot be read, which is
none. -/
def roots (text : String) : List (Option NamedNode) :=
  let ts := tokens text
  readDocuments (4 * ts.length + 16) (ts.length + 1) true ts

end Document

end ExamPaper
