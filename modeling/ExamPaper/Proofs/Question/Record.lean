import ExamPaper.Proofs.Float.Order
import ExamPaper.Question.Record

/-!
# What every question read from a file has

A document becomes a question through a record of its entries, and each field of the question is
read from the record by a function that refuses most of what may be there. What they accept comes
together in `Question.WellFormed`, which everything after the bank relies on: a target can be
approached with difficulties that are positive, questions can be drawn by frequencies that are
positive, and every question has a tag and something to print.

> The questions of a file are those of its documents that are neither null nor to be ignored, one
> for each, in order, and they are well-formed (`ofDocuments_wellFormed`).
-/

namespace ExamPaper

/-- Whether a document is to become a question: it is not null, and no entry is called `ignored`. -/
def Value.holdsQuestion (v : Value) : Bool :=
  !v.isNull && match v with
    | .mapping entries => !entries.any fun entry => entry.1.scalarText? == some "ignored"
    | _ => true

/-- What holds of a question that was read from a file with the given name. -/
structure Question.WellFormed (stem : String) (q : Question) : Prop where
  of_scaffold : q.scaffold = true → q.difficulty = 0.0 ∧ q.autotag = false
  difficulty : q.scaffold = false →
    q.difficulty.isFinite = true ∧ (q.difficulty == 0.0) = false ∧ ¬ q.difficulty < 0.0
  frequency : q.frequency.isFinite = true ∧ 0.0 < q.frequency
  tags : q.tags.names ≠ []
  of_autotag : q.autotag = true → q.tags.contains stem = true ∧ q.tags.contains allTag = true
  title_field : q.fields.get? "title" = some q.title
  difficulty_field : q.fields.get? "difficulty" = some (Decimal.text q.difficulty)
  frequency_field : q.fields.get? "frequency" = some (Decimal.text q.frequency)
  scaffold_field : q.fields.get? "scaffold" = some (truthText q.scaffold)
  autotag_field : q.fields.get? "autotag" = some (truthText q.autotag)
  /-- There is something to print. -/
  channel : ∃ name, name ∉ reservedFields ∧ q.fields.contains name = true

namespace Record

variable {r : Record} {origin : Origin}

/-! ## What the fields of a question are read from -/

/-- The names in the record are those of the entries. -/
theorem contains_addEntries {entries : Entries} {r' : Record}
    (h : r.addEntries origin entries = .ok r') (name : String) :
    r'.contains name =
      (r.contains name || entries.any fun entry => entry.1.scalarText? == some name) := by
  induction entries generalizing r with
  | nil =>
    obtain rfl := Except.ok.inj h
    simp
  | cons entry entries ih =>
    obtain ⟨k, v⟩ := entry
    rw [addEntries] at h
    cases hk : k.scalarText? with
    | none => rw [hk] at h; exact absurd h (by simp)
    | some own =>
      rw [hk] at h
      have hname : (name == own) = (some own == some name) := by
        rw [Option.some_beq_some, BEq.comm]
      rw [ih h, NameMap.contains_insert, List.any_cons, hk, hname,
        Bool.or_comm (some own == some name), Bool.or_assoc]

/-- A scaffold has the difficulty zero, every other question a positive one. -/
theorem difficulty_ok {x : Float} (h : r.difficulty origin = .ok x) :
    (r.isScaffold = true → x = 0.0) ∧
      (r.isScaffold = false → x.isFinite = true ∧ (x == 0.0) = false ∧ ¬ x < 0.0) := by
  unfold difficulty at h
  cases hscaffold : r.isScaffold with
  | true =>
    rw [hscaffold, if_pos rfl] at h
    exact ⟨fun _ => (Except.ok.inj h).symm, fun hnot => absurd hnot (by decide)⟩
  | false =>
    refine ⟨fun hnot => absurd hnot (by decide), fun _ => ?_⟩
    rw [hscaffold, if_neg (by decide)] at h
    cases hv : r.present? "difficulty" with
    | none => rw [hv] at h; exact absurd h (by simp)
    | some v =>
      simp only [hv] at h
      cases hx : v.float? with
      | none => rw [hx] at h; exact absurd h (by simp)
      | some y =>
        simp only [hx] at h
        by_cases hzero : (y == 0.0) = true
        · rw [if_pos hzero] at h
          exact absurd h (by simp)
        · rw [if_neg hzero] at h
          by_cases hrefused : (!y.isFinite || decide (y < 0.0)) = true
          · rw [if_pos hrefused] at h
            exact absurd h (by simp)
          · rw [if_neg hrefused] at h
            obtain rfl := Except.ok.inj h
            simpa [hzero] using hrefused

/-- Frequencies are positive and finite. -/
theorem frequency_ok {x : Float} (h : r.frequency origin = .ok x) :
    x.isFinite = true ∧ 0.0 < x := by
  unfold frequency at h
  cases hy : r.frequencyValue origin with
  | error e => rw [hy] at h; exact absurd h (by simp)
  | ok y =>
    simp only [hy] at h
    by_cases hrefused : (!y.isFinite || decide (y ≤ 0.0)) = true
    · rw [if_pos hrefused] at h
      exact absurd h (by simp)
    · rw [if_neg hrefused] at h
      obtain rfl := Except.ok.inj h
      obtain ⟨hfinite, hpositive⟩ : y.isFinite = true ∧ ¬ y ≤ 0.0 := by simpa using hrefused
      exact ⟨hfinite,
        FloatOrder.lt_of_not_le (FloatOrder.isNaN_of_isFinite hfinite) (by decide) hpositive⟩

/-- A scaffold gets no tags of its own accord. -/
theorem autotag_ok {b : Bool} (h : r.autotag origin = .ok b) (hscaffold : r.isScaffold = true) :
    b = false := by
  unfold autotag at h
  rw [if_pos hscaffold] at h
  exact (Except.ok.inj h).symm

/-- Every question has a tag, and with automatic tags it has those of its file and of all. -/
theorem tags_ok {stem : String} {autotag : Bool} {tags : NameSet}
    (h : r.tags origin stem autotag = .ok tags) :
    tags.names ≠ [] ∧
      (autotag = true → tags.contains stem = true ∧ tags.contains allTag = true) := by
  unfold Record.tags at h
  cases hown : r.ownTags origin with
  | error e => rw [hown] at h; exact absurd h (by simp)
  | ok own =>
    simp only [hown] at h
    obtain ⟨all, hall⟩ :
        ∃ all, all = if autotag = true then (own.insert stem).insert allTag else own := ⟨_, rfl⟩
    rw [← hall] at h
    by_cases hempty : all.names.isEmpty = true
    · rw [if_pos hempty] at h
      exact absurd h (by simp)
    · rw [if_neg hempty] at h
      obtain rfl := Except.ok.inj h
      refine ⟨fun hnone => hempty (by rw [hnone]; rfl), fun hauto => ?_⟩
      rw [hall, if_pos hauto]
      simp [NameSet.contains_insert]

/-- A text channel is among the fields. -/
theorem contains_fields_of_channel (h : r.entries.any isChannel = true) :
    ∃ name, name ∉ reservedFields ∧ r.fields.contains name = true := by
  obtain ⟨⟨name, v⟩, hmem, hchannel⟩ := List.any_eq_true.mp h
  cases v with
  | text s =>
    have hfield : (name, s) ∈ r.fields.entries :=
      List.mem_filterMap.mpr ⟨(name, .text s), hmem, rfl⟩
    exact ⟨name, by simpa [isChannel] using hchannel, NameMap.contains_of_mem hfield⟩
  | null | bool | number | list | mapping | tagged => exact absurd hchannel (by simp [isChannel])

end Record

namespace Question

/-! ## From a record to its question -/

/-- A question whose fields are what a record says. -/
structure ReadFrom (stem : String) (origin : Origin) (r : Record) (q : Question) : Prop where
  origin_eq : q.origin = origin
  difficulty : r.difficulty origin = .ok q.difficulty
  frequency : r.frequency origin = .ok q.frequency
  scaffold : q.scaffold = r.isScaffold
  autotag : r.autotag origin = .ok q.autotag
  tags : r.tags origin stem q.autotag = .ok q.tags
  channel : r.entries.any Record.isChannel = true
  fields : q.fields = ((((r.fields.insert "title" q.title).insert "difficulty"
    (Decimal.text q.difficulty)).insert "frequency" (Decimal.text q.frequency)).insert "scaffold"
    (truthText q.scaffold)).insert "autotag" (truthText q.autotag)

variable {stem : String} {origin : Origin} {r : Record} {q : Question}

/-- What is read from a record is what the record says. -/
theorem readFrom_of_ofRecord (h : ofRecord stem origin r = .ok q) : ReadFrom stem origin r q := by
  unfold ofRecord at h
  cases hdifficulty : r.difficulty origin with
  | error e => rw [hdifficulty] at h; exact absurd h (by simp)
  | ok difficulty =>
    simp only [hdifficulty] at h
    cases hfrequency : r.frequency origin with
    | error e => rw [hfrequency] at h; exact absurd h (by simp)
    | ok frequency =>
      simp only [hfrequency] at h
      cases hautotag : r.autotag origin with
      | error e => rw [hautotag] at h; exact absurd h (by simp)
      | ok autotag =>
        simp only [hautotag] at h
        cases htags : r.tags origin stem autotag with
        | error e => rw [htags] at h; exact absurd h (by simp)
        | ok tags =>
          simp only [htags] at h
          cases hchannel : r.entries.any Record.isChannel with
          | false => rw [hchannel, if_pos (by decide)] at h; exact absurd h (by simp)
          | true =>
            rw [hchannel, if_neg (by decide)] at h
            obtain rfl := Except.ok.inj h
            exact ⟨rfl, hdifficulty, hfrequency, rfl, hautotag, htags, hchannel, rfl⟩

/-- What a record is made into is well-formed. -/
theorem ReadFrom.wellFormed (h : ReadFrom stem origin r q) : q.WellFormed stem := by
  obtain ⟨hzero, hnumber⟩ := Record.difficulty_ok h.difficulty
  obtain ⟨hsome, hown⟩ := Record.tags_ok h.tags
  obtain ⟨name, hname, hfield⟩ := Record.contains_fields_of_channel h.channel
  rw [← h.scaffold] at hzero hnumber
  constructor
  case of_scaffold =>
    intro hscaffold
    exact ⟨hzero hscaffold, Record.autotag_ok h.autotag (h.scaffold ▸ hscaffold)⟩
  case difficulty => exact hnumber
  case frequency => exact Record.frequency_ok h.frequency
  case tags => exact hsome
  case of_autotag => exact hown
  -- the texts are put in one after another, each under a name of its own
  case title_field => simp [h.fields, NameMap.get?_insert]
  case difficulty_field => simp [h.fields, NameMap.get?_insert]
  case frequency_field => simp [h.fields, NameMap.get?_insert]
  case scaffold_field => simp [h.fields, NameMap.get?_insert]
  case autotag_field => simp [h.fields]
  case channel => exact ⟨name, hname, by simp [h.fields, NameMap.contains_insert, hfield]⟩

/-! ## From documents to questions -/

/-- A document holds a question unless it says that it is to be ignored. -/
theorem holdsQuestion_mapping {entries : Entries}
    (hr : Record.addEntries origin ∅ entries = .ok r) :
    (Value.mapping entries).holdsQuestion = !r.contains "ignored" := by
  rw [Record.contains_addEntries hr]
  rfl

/-- A document that can be read is a question or none, as it says itself. -/
theorem ofValue_ok {v : Value} {found : Option Question} (h : ofValue stem origin v = .ok found) :
    (v.holdsQuestion = false ∧ found = none) ∨
    (v.holdsQuestion = true ∧ ∃ q, found = some q ∧ q.origin = origin ∧ q.WellFormed stem) := by
  unfold ofValue at h
  by_cases hnull : v.isNull = true
  · rw [if_pos hnull] at h
    exact Or.inl ⟨by simp [Value.holdsQuestion, hnull], (Except.ok.inj h).symm⟩
  · rw [if_neg hnull] at h
    cases v with
    | mapping entries =>
      cases hr : Record.addEntries origin ∅ entries with
      | error e => simp only [hr] at h; exact absurd h (by simp)
      | ok r =>
        simp only [hr] at h
        rw [holdsQuestion_mapping hr]
        by_cases hignored : r.contains "ignored" = true
        · rw [if_pos hignored] at h
          exact Or.inl ⟨by simp [hignored], (Except.ok.inj h).symm⟩
        · rw [if_neg hignored] at h
          cases hq : ofRecord stem origin r with
          | error e => rw [hq] at h; exact absurd h (by simp [Except.map])
          | ok q =>
            rw [hq] at h
            have hread := readFrom_of_ofRecord hq
            exact Or.inr ⟨by simp [hignored], q, (Except.ok.inj h).symm, hread.origin_eq,
              hread.wellFormed⟩
    | null | bool | number | text | list | tagged => exact absurd h (by simp)

/-- What a question read from a file has to do with its document, given with its position. -/
structure OfDocument (path : Path) (document : Value × Nat) (q : Question) : Prop where
  origin_eq : q.origin = ⟨path, document.2⟩
  read : ofValue (path.stem?.getD "") q.origin document.1 = .ok (some q)
  wellFormed : q.WellFormed (path.stem?.getD "")

/-- The questions of the documents from some position on. -/
theorem ofDocumentsFrom_ok {path : Path} {documents : List (Option Value)} {position : Nat}
    {qs : List Question} (h : ofDocumentsFrom path position documents = .ok qs) :
    ∃ values : List Value, documents = values.map some ∧
      List.Forall₂ (OfDocument path)
        ((values.zipIdx position).filter fun document => document.1.holdsQuestion) qs := by
  induction documents generalizing position qs with
  | nil =>
    obtain rfl := Except.ok.inj h
    exact ⟨[], rfl, .nil⟩
  | cons document documents ih =>
    cases document with
    | none => exact absurd h (by simp [ofDocumentsFrom])
    | some v =>
      rw [ofDocumentsFrom] at h
      cases hfound : ofValue (path.stem?.getD "") ⟨path, position⟩ v with
      | error e => rw [hfound] at h; exact absurd h (by simp)
      | ok found =>
        simp only [hfound] at h
        cases hrest : ofDocumentsFrom path (position + 1) documents with
        | error e => rw [hrest] at h; exact absurd h (by simp [Except.map])
        | ok rest =>
          rw [hrest] at h
          obtain rfl := Except.ok.inj h
          obtain ⟨values, rfl, hquestions⟩ := ih hrest
          refine ⟨v :: values, rfl, ?_⟩
          rw [List.zipIdx_cons]
          rcases ofValue_ok hfound with ⟨hnone, rfl⟩ | ⟨hone, q, rfl, horigin, hwellFormed⟩
          · rw [List.filter_cons_of_neg (by simp [hnone])]
            exact hquestions
          · rw [List.filter_cons_of_pos (by simp [hone])]
            exact .cons ⟨horigin, horigin ▸ hfound, hwellFormed⟩ hquestions

/-- **The questions of a file.** When the documents of a file are read, each of them can be read,
and there is one question for each document that is neither null nor has an entry called `ignored`,
in order, whose origin is the position of the document among all. Each question is well-formed: its
numbers and tags are as the selection needs them, its fields hold its own values as texts, and there
is a text channel among them. -/
theorem ofDocuments_wellFormed {path : Path} {documents : List (Option Value)}
    {qs : List Question} (h : ofDocuments path documents = .ok qs) :
    ∃ values : List Value, documents = values.map some ∧
      List.Forall₂ (OfDocument path)
        (values.zipIdx.filter fun document => document.1.holdsQuestion) qs :=
  ofDocumentsFrom_ok h

/-- A file with two questions, the second of which is a scaffold and has other entries that do not
count for that reason. -/
def algebra : List (Option Value) := [
  some .null,
  some (.mapping [(.text "difficulty", .number (.int 2)), (.text "notes", .text "x + 1 = 2")]),
  some (.mapping [(.text "ignored", .bool false), (.text "notes", .text "x = x")]),
  some (.mapping [(.text "scaffold", .text "yes"), (.text "difficulty", .text "hard"),
    (.text "autotag", .bool true), (.text "tags", .text "intro"), (.text "title", .number (.int 1)),
    (.text "notes", .text "Solve for x.")])]

def algebraQuestions : List Question := [
  { title := "algebra#1", difficulty := 2.0, frequency := 1.0, tags := ⟨["algebra", "all"]⟩,
    scaffold := false, autotag := true,
    fields := ⟨[("autotag", "true"), ("difficulty", "2"), ("frequency", "1"),
      ("notes", "x + 1 = 2"), ("scaffold", "false"), ("title", "algebra#1")]⟩,
    origin := ⟨⟨"bank/algebra.yaml"⟩, 1⟩ },
  { title := "1", difficulty := 0.0, frequency := 1.0, tags := ⟨["intro"]⟩,
    scaffold := true, autotag := false,
    fields := ⟨[("autotag", "false"), ("difficulty", "0"), ("frequency", "1"),
      ("notes", "Solve for x."), ("scaffold", "true"), ("tags", "intro"), ("title", "1")]⟩,
    origin := ⟨⟨"bank/algebra.yaml"⟩, 3⟩ }]

/-- The null document and the one to be ignored count as positions, and give no question. -/
theorem ofDocuments_wellFormed_algebra :
    ofDocuments ⟨"bank/algebra.yaml"⟩ algebra = .ok algebraQuestions ∧
    algebraQuestions.map (·.origin.document) = [1, 3] ∧
    ∃ values : List Value, algebra = values.map some ∧
      List.Forall₂ (OfDocument ⟨"bank/algebra.yaml"⟩)
        (values.zipIdx.filter fun document => document.1.holdsQuestion) algebraQuestions := by
  have hquestions : ofDocuments ⟨"bank/algebra.yaml"⟩ algebra = .ok algebraQuestions := by
    decide +kernel
  exact ⟨hquestions, rfl, ofDocuments_wellFormed hquestions⟩

end Question

end ExamPaper
