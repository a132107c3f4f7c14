import ExamPaper.Document.Value
import ExamPaper.Question.Error

/-!
# Questions from documents

How a document of a question file becomes a question. The entries of its mapping are its record, in
the order of their names; of two with one name the later counts. A question needs a difficulty,
unless it is a scaffold, a tag and a text channel. It is tagged with the name of its file and with
`all` unless it says otherwise.

Mirrors `normalize` and `scalar_to_string`.
-/

namespace ExamPaper

/-- The entries of a question, by name. -/
abbrev Record := NameMap Value

namespace Record

/-- The value under a name, if it is not null. -/
def present? (r : Record) (name : String) : Option Value :=
  (r.get? name).filter fun v => !v.isNull

/-- Adds entries to a record. -/
def addEntries (origin : Origin) (r : Record) : Entries → Except BankError Record
  | [] => .ok r
  | (k, v) :: entries =>
    match k.scalarText? with
    | none => .error (.invalidField origin "<key>" .nameNotScalar)
    | some name => addEntries origin (r.insert name v) entries

/-- Whether the question is a scaffold: the entry is there and is not false. -/
def isScaffold (r : Record) : Bool :=
  match r.get? "scaffold" with
  | none | some (.bool false) => false
  | some _ => true

/-- The difficulty, which is zero for a scaffold and a positive number otherwise. -/
def difficulty (origin : Origin) (r : Record) : Except BankError Float :=
  if r.isScaffold then .ok 0.0
  else match r.present? "difficulty" with
    | none => .error (.missingField origin "difficulty")
    | some v => match v.float? with
      | none => .error (.invalidField origin "difficulty" .notANumber)
      | some x =>
        if x == 0.0 then .error (.zeroDifficulty origin)
        else if !x.isFinite || x < 0.0 then .error (.invalidField origin "difficulty" .negative)
        else .ok x

/-- The number under `frequency`, or one. -/
def frequencyValue (origin : Origin) (r : Record) : Except BankError Float :=
  match r.present? "frequency" with
  | none => .ok 1.0
  | some v => match v.float? with
    | none => .error (.invalidField origin "frequency" .notANumber)
    | some x => .ok x

/-- The frequency, a positive number. -/
def frequency (origin : Origin) (r : Record) : Except BankError Float :=
  match r.frequencyValue origin with
  | .error e => .error e
  | .ok x =>
    if !x.isFinite || x <= 0.0 then .error (.invalidField origin "frequency" .notPositive)
    else .ok x

/-- Whether the question gets the tags that its file gives; a scaffold does not. -/
def autotag (origin : Origin) (r : Record) : Except BankError Bool :=
  if r.isScaffold then .ok false
  else match r.get? "autotag" with
    | none | some .null => .ok true
    | some (.bool b) => .ok b
    | some _ => .error (.invalidField origin "autotag" .notATruthValue)

/-- Adds the items of a list to tags. -/
def addTags (origin : Origin) (tags : NameSet) : List Value → Except BankError NameSet
  | [] => .ok tags
  | v :: vs =>
    match v.scalarText? with
    | none => .error (.invalidField origin "tags" .itemNotScalar)
    | some tag => addTags origin (tags.insert tag) vs

/-- The tags that the question names itself, one or a list of them. -/
def ownTags (origin : Origin) (r : Record) : Except BankError NameSet :=
  match r.get? "tags" with
  | none | some .null => .ok {}
  | some (.list items) => addTags origin {} items
  | some v => match v.scalarText? with
    | none => .error (.invalidField origin "tags" .notTags)
    | some tag => .ok (NameSet.insert {} tag)

/-- The tags of the question, at least one. -/
def tags (origin : Origin) (stem : String) (autotag : Bool) (r : Record) :
    Except BankError NameSet :=
  match r.ownTags origin with
  | .error e => .error e
  | .ok own =>
    let tags := if autotag then (own.insert stem).insert allTag else own
    if tags.names.isEmpty then .error (.missingField origin "tags") else .ok tags

/-- Whether an entry is a text channel: a text under a name of no other meaning. -/
def isChannel : String × Value → Bool
  | (name, .text _) => !reservedFields.contains name
  | _ => false

/-- The entries that are single values, as texts. -/
def fields (r : Record) : NameMap String :=
  ⟨r.entries.filterMap fun (name, v) => v.scalarText?.map fun text => (name, text)⟩

end Record

namespace Question

/-- The question of a record, with the name of its file in place of a missing title. -/
def ofRecord (stem : String) (origin : Origin) (r : Record) : Except BankError Question :=
  match r.difficulty origin with
  | .error e => .error e
  | .ok difficulty =>
  match r.frequency origin with
  | .error e => .error e
  | .ok frequency =>
  match r.autotag origin with
  | .error e => .error e
  | .ok autotag =>
  match r.tags origin stem autotag with
  | .error e => .error e
  | .ok tags =>
    if !r.entries.any Record.isChannel then .error (.missingField origin "text channel")
    else
      let title := (r.fields.get? "title").getD (stem ++ "#" ++ Nat.repr origin.document)
      let fields := (r.fields.insert "title" title)
        |>.insert "difficulty" (Decimal.text difficulty)
        |>.insert "frequency" (Decimal.text frequency)
        |>.insert "scaffold" (truthText r.isScaffold)
        |>.insert "autotag" (truthText autotag)
      .ok { title, difficulty, frequency, tags, scaffold := r.isScaffold, autotag, fields, origin }

/-- The question of a document; none if the document is null or says that it is to be ignored. -/
def ofValue (stem : String) (origin : Origin) (v : Value) : Except BankError (Option Question) :=
  if v.isNull then .ok none
  else match v with
    | .mapping entries =>
      match Record.addEntries origin ∅ entries with
      | .error e => .error e
      | .ok r => if r.contains "ignored" then .ok none else (ofRecord stem origin r).map some
    | _ => .error (.notAMapping origin)

/-- The questions of documents of a file, the first of which has the given position. A document
that cannot be read is none. -/
def ofDocumentsFrom (path : Path) (position : Nat) :
    List (Option Value) → Except BankError (List Question)
  | [] => .ok []
  | none :: _ => .error (.notYaml path)
  | some v :: vs =>
    match ofValue (path.stem?.getD "") ⟨path, position⟩ v with
    | .error e => .error e
    | .ok q => (ofDocumentsFrom path (position + 1) vs).map (q.toList ++ ·)

/-- The questions of the documents of a file. -/
def ofDocuments (path : Path) (documents : List (Option Value)) :
    Except BankError (List Question) :=
  ofDocumentsFrom path 0 documents

end Question

end ExamPaper
