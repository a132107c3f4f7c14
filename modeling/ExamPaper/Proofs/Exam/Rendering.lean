import ExamPaper.Exam.Rendering
import ExamPaper.Proofs.Template.Channels

/-!
# What an exam is made of

An exam is rendered piece by piece: the beginnings, one row of texts for each question, the ends.
Each piece is a rendering of its own. It starts from fresh variables and metadata; the counter and
the random source are all that it takes over from the pieces before.

> The text of a channel is that channel of every piece, put together, and a line feed; and a
> rendering succeeds just if every piece does (`render_pieces`). So a question that meets the same
> counter and the same random source has the same texts, whatever stands around it.

`Pieces` holds the pieces and the random sources between them, and `Renders` says how each piece
comes about.
-/

namespace ExamPaper

namespace Rendering

open Template (Engine State zeroSource)

variable {ρ : Type}

/-- The engine that renders an exam on a day. -/
def engineOf (exam : ExamIndex) (today : String) : Engine := { macros := exam.macros, today }

/-- The counter of the question at a position: one, and one more for every question before it that
is no scaffold. -/
def counterAt (qs : List Question) (k : Nat) : Nat := 1 + (qs.take k).countP fun q => !q.scaffold

/-- The pieces of an exam, each a list with one text for each channel, and the random source before
each question and after the last one. -/
structure Pieces (ρ : Type) where
  header : List String
  row : Nat → List String
  footer : List String
  source : Nat → ρ

namespace Pieces

/-- The pieces of an exam with `n` questions, in order. -/
def inOrder (p : Pieces ρ) (n : Nat) : List (List String) :=
  p.header :: (List.range n).map p.row ++ [p.footer]

/-- The text of the channel at position `j`. -/
def column (p : Pieces ρ) (n j : Nat) : String :=
  String.join ((p.inOrder n).map (·.getD j "")) ++ "\n"

end Pieces

/-! ## Rows and columns -/

/-- The counter goes on by one after a question that is no scaffold. -/
theorem nextCounter_eq (counter : Nat) (q : Question) :
    nextCounter counter q = counter + [q].countP fun q => !q.scaffold := by
  unfold nextCounter
  cases hscaffold : q.scaffold <;> simp [hscaffold]

/-- Rows of the same width, put together one after another onto a row of the texts before. -/
theorem foldl_rows {width : Nat} : ∀ {rows : List (List String)} (before : Nat → String),
    (∀ row ∈ rows, row.length = width) →
    rows.foldl (List.zipWith (· ++ ·)) ((List.range width).map before) =
      (List.range width).map fun j => before j ++ String.join (rows.map (·.getD j "")) := by
  intro rows
  induction rows with
  | nil => intro before _; simp
  | cons row rows ih =>
    intro before hwidth
    obtain ⟨hrow, hrows⟩ := List.forall_mem_cons.mp hwidth
    -- the texts of the row go to the end of what was before, which is then `before` for the rest
    have hnext : List.zipWith (· ++ ·) ((List.range width).map before) row =
        (List.range width).map fun j => before j ++ row.getD j "" := by
      refine List.ext_getElem (by simp [hrow]) ?_
      intro j hj _
      have hlt : j < row.length := by
        rw [List.length_zipWith] at hj
        exact Nat.lt_of_lt_of_le hj (Nat.min_le_right ..)
      simp [List.getElem_zipWith, hlt]
    rw [List.foldl_cons, hnext, ih _ hrows]
    refine List.map_congr_left fun j _ => ?_
    rw [List.map_cons, String.join_cons, String.append_assoc]

/-- The columns of rows of the same width. -/
theorem columns_eq {width : Nat} {rows : List (List String)}
    (h : ∀ row ∈ rows, row.length = width) :
    columns width rows =
      (List.range width).map fun j => String.join (rows.map (·.getD j "")) ++ "\n" := by
  have hstart : List.replicate width "" = (List.range width).map fun _ => "" := by
    rw [List.map_const', List.length_range]
  unfold columns
  rw [hstart, foldl_rows _ h, List.map_map]
  refine List.map_congr_left fun j _ => ?_
  simp

/-! ## Piece by piece -/

/-- Two renderings, the second with what the first gives, from where that one ends. -/
def andThen {ε α β : Type} (first : Except ε α × ρ) (second : α → ρ → Except ε β × ρ) :
    Except ε β × ρ :=
  match first with
  | (.error e, r) => (.error e, r)
  | (.ok a, r) => second a r

/-- Two steps in a row succeed just if each of them does. -/
theorem andThen_eq_ok_iff {ε α β : Type} {first : Except ε α × ρ}
    {second : α → ρ → Except ε β × ρ} {b : β} {r' : ρ} :
    andThen first second = (.ok b, r') ↔
      ∃ a r, first = (.ok a, r) ∧ second a r = (.ok b, r') := by
  obtain ⟨result, r⟩ := first
  cases result with
  | error e =>
    constructor
    · intro h
      exact absurd (Prod.mk.inj h).1 (by simp)
    · rintro ⟨a, r₁, hfirst, _⟩
      exact absurd (Prod.mk.inj hfirst).1 (by simp)
  | ok a =>
    constructor
    · intro h
      exact ⟨a, r, rfl, h⟩
    · rintro ⟨a₁, r₁, hfirst, h⟩
      obtain ⟨ha, rfl⟩ := Prod.mk.inj hfirst
      obtain rfl := Except.ok.inj ha
      exact h

variable [Draws ρ]

/-- A rendering has one text for each channel. -/
theorem render_length {e : Engine} {counter : Nat} {base : State} {ids texts outputs : List String}
    {r r' : ρ} (hlength : texts.length = ids.length)
    (h : e.render counter base ids texts r = (.ok outputs, r')) : outputs.length = ids.length := by
  unfold Engine.render at h
  rw [Engine.renderFrom_eq] at h
  rw [Engine.throughChannels_length (Prod.mk.inj h).1, List.length_zip, hlength, Nat.min_self]

/-- Questions are rendered one after another, with the random source that is left by the one before.
-/
theorem renderQuestions_cons (e : Engine) (ids : List String) (counter : Nat) (q : Question)
    (qs : List Question) (r : ρ) :
    renderQuestions e ids counter (q :: qs) r =
      andThen (renderQuestion e ids counter q r) fun row r =>
        andThen (renderQuestions e ids (nextCounter counter q) qs r) fun rows r =>
          (.ok (row :: rows), r) := by
  rw [renderQuestions]
  obtain ⟨_ | row, r₁⟩ := renderQuestion e ids counter q r
  · rfl
  · dsimp only [andThen]
    generalize renderQuestions e ids (nextCounter counter q) qs r₁ = rest
    obtain ⟨_ | rows, r₂⟩ := rest <;> rfl

/-- All questions are rendered if the first one is, and the rest are from there on. -/
theorem renderQuestions_cons_eq_ok_iff {e : Engine} {ids : List String} {counter : Nat}
    {q : Question} {qs : List Question} {r r' : ρ} {rows : List (List String)} :
    renderQuestions e ids counter (q :: qs) r = (.ok rows, r') ↔
      ∃ first rest r₁, renderQuestion e ids counter q r = (.ok first, r₁) ∧
        renderQuestions e ids (nextCounter counter q) qs r₁ = (.ok rest, r') ∧
        rows = first :: rest := by
  rw [renderQuestions_cons, andThen_eq_ok_iff]
  constructor
  · rintro ⟨first, r₁, hfirst, h⟩
    obtain ⟨rest, r₂, hrest, h⟩ := andThen_eq_ok_iff.mp h
    obtain ⟨hrows, rfl⟩ := Prod.mk.inj h
    exact ⟨first, rest, r₁, hfirst, hrest, (Except.ok.inj hrows).symm⟩
  · rintro ⟨first, rest, r₁, hfirst, hrest, rfl⟩
    exact ⟨first, r₁, hfirst, andThen_eq_ok_iff.mpr ⟨rest, r', hrest, rfl⟩⟩

/-- Questions are rendered just if each of them is, with the counter at its position and from the
random source that the one before has left. -/
theorem renderQuestions_eq_ok_iff {e : Engine} {ids : List String} :
    ∀ {qs : List Question} {counter : Nat} {r r' : ρ} {rows : List (List String)},
      renderQuestions e ids counter qs r = (.ok rows, r') ↔
        ∃ (row : Nat → List String) (source : Nat → ρ),
          source 0 = r ∧ source qs.length = r' ∧ rows = (List.range qs.length).map row ∧
          ∀ k q, qs[k]? = some q →
            renderQuestion e ids (counter + (qs.take k).countP fun q => !q.scaffold) q (source k) =
              (.ok (row k), source (k + 1)) := by
  intro qs
  induction qs with
  | nil =>
    intro counter r r' rows
    constructor
    · intro h
      obtain ⟨hrows, rfl⟩ := Prod.mk.inj h
      exact ⟨fun _ => [], fun _ => r, rfl, rfl, (Except.ok.inj hrows).symm, by simp⟩
    · rintro ⟨row, source, rfl, rfl, rfl, -⟩
      rfl
  | cons q qs ih =>
    intro counter r r' rows
    -- what precedes a later question is the first one and what precedes it in the rest
    have hshift : ∀ k, counter + ((q :: qs).take (k + 1)).countP (fun q => !q.scaffold) =
        nextCounter counter q + (qs.take k).countP fun q => !q.scaffold := by
      intro k
      rw [nextCounter_eq, Nat.add_assoc, ← List.countP_append]
      rfl
    have hrange : ∀ row : Nat → List String, (List.range (q :: qs).length).map row =
        row 0 :: (List.range qs.length).map fun k => row (k + 1) := by
      intro row
      rw [List.length_cons, List.range_succ_eq_map, List.map_cons, List.map_map]
      rfl
    rw [renderQuestions_cons_eq_ok_iff]
    constructor
    · rintro ⟨first, rest, r₁, hfirst, hrest, rfl⟩
      obtain ⟨row, source, rfl, rfl, rfl, hrow⟩ := ih.mp hrest
      let row' : Nat → List String := fun k => k.casesOn first row
      let source' : Nat → ρ := fun k => k.casesOn r source
      refine ⟨row', source', rfl, rfl, (hrange row').symm, ?_⟩
      intro k q' hq
      cases k with
      | zero =>
        obtain rfl := Option.some.inj hq
        exact hfirst
      | succ k =>
        rw [hshift]
        exact hrow k q' hq
    · rintro ⟨row, source, rfl, rfl, rfl, hrow⟩
      refine ⟨_, _, source 1, hrow 0 q rfl, ih.mpr ?_, hrange row⟩
      refine ⟨fun k => row (k + 1), fun k => source (k + 1), rfl, rfl, rfl, ?_⟩
      intro k q' hq
      rw [← hshift]
      exact hrow (k + 1) q' hq

/-- How the pieces of an exam come about, from one random source to another: each is a rendering of
its own, with fresh variables, and goes on with the random source of the one before. -/
structure Renders (exam : ExamIndex) (today : String) (qs : List Question) (r : ρ) (p : Pieces ρ)
    (r' : ρ) : Prop where
  header : (engineOf exam today).render 0 { metadata := exam.metadata } exam.ids
    (exam.channels.map (·.header)) r = (.ok p.header, p.source 0)
  row : ∀ k q, qs[k]? = some q →
    (engineOf exam today).render (counterAt qs k) { metadata := q.fields } exam.ids
      (exam.ids.map (channelText q)) (p.source k) = (.ok (p.row k), p.source (k + 1))
  footer : (engineOf exam today).render 0 { metadata := exam.metadata } exam.ids
    (exam.channels.map (·.footer)) (p.source qs.length) = (.ok p.footer, r')

namespace Renders

variable {exam : ExamIndex} {today : String} {qs : List Question} {r r' : ρ} {p : Pieces ρ}

/-- Every piece has one text for each channel. -/
theorem length_eq (h : Renders exam today qs r p r') :
    ∀ piece ∈ p.inOrder qs.length, piece.length = exam.channels.length := by
  have hids : exam.ids.length = exam.channels.length := List.length_map ..
  intro piece hpiece
  rw [Pieces.inOrder, List.cons_append, List.mem_cons, List.mem_append, List.mem_map,
    List.mem_singleton] at hpiece
  rw [← hids]
  rcases hpiece with rfl | ⟨k, hk, rfl⟩ | rfl
  · exact render_length (by rw [List.length_map, hids]) h.header
  · have hq := List.getElem?_eq_getElem (List.mem_range.mp hk)
    exact render_length (List.length_map ..) (h.row k _ hq)
  · exact render_length (by rw [List.length_map, hids]) h.footer

end Renders

/-- An exam is rendered in three steps: beginnings, questions and ends. -/
theorem render_eq (exam : ExamIndex) (today : String) (qs : List Question) (r : ρ) :
    render exam today qs r =
      andThen ((engineOf exam today).render 0 { metadata := exam.metadata } exam.ids
        (exam.channels.map (·.header)) r) fun header r =>
      andThen (renderQuestions (engineOf exam today) exam.ids 1 qs r) fun rows r =>
      andThen ((engineOf exam today).render 0 { metadata := exam.metadata } exam.ids
        (exam.channels.map (·.footer)) r) fun footer r =>
      (.ok (columns exam.channels.length (header :: rows ++ [footer])), r) := by
  unfold render engineOf
  dsimp only
  generalize Engine.render _ 0 _ exam.ids (exam.channels.map (·.header)) r = header
  obtain ⟨_ | header, r₁⟩ := header
  · rfl
  dsimp only [andThen]
  generalize renderQuestions _ exam.ids 1 qs r₁ = rows
  obtain ⟨_ | rows, r₂⟩ := rows
  · rfl
  dsimp only
  generalize Engine.render _ 0 _ exam.ids (exam.channels.map (·.footer)) r₂ = footer
  obtain ⟨_ | footer, r₃⟩ := footer <;> rfl

/-- The outputs of an exam are the columns of its pieces. -/
theorem render_eq_ok_iff {exam : ExamIndex} {today : String} {qs : List Question} {r r' : ρ}
    {outputs : List String} :
    render exam today qs r = (.ok outputs, r') ↔
      ∃ p, Renders exam today qs r p r' ∧
        outputs = columns exam.channels.length (p.inOrder qs.length) := by
  rw [render_eq, andThen_eq_ok_iff]
  constructor
  · rintro ⟨header, r₁, hheader, h⟩
    obtain ⟨rows, r₂, hrows, h⟩ := andThen_eq_ok_iff.mp h
    obtain ⟨footer, r₃, hfooter, h⟩ := andThen_eq_ok_iff.mp h
    obtain ⟨houtputs, rfl⟩ := Prod.mk.inj h
    obtain ⟨row, source, rfl, rfl, rfl, hrow⟩ := renderQuestions_eq_ok_iff.mp hrows
    exact ⟨⟨header, row, footer, source⟩, ⟨hheader, hrow, hfooter⟩, (Except.ok.inj houtputs).symm⟩
  · rintro ⟨p, hp, rfl⟩
    refine ⟨p.header, p.source 0, hp.header, ?_⟩
    refine andThen_eq_ok_iff.mpr ⟨(List.range qs.length).map p.row, p.source qs.length, ?_, ?_⟩
    · exact renderQuestions_eq_ok_iff.mpr ⟨p.row, p.source, rfl, rfl, rfl, hp.row⟩
    · exact andThen_eq_ok_iff.mpr ⟨p.footer, r', hp.footer, rfl⟩

/-- An exam has one text for each channel. -/
theorem length_of_render {exam : ExamIndex} {today : String} {qs : List Question} {r : ρ}
    {outputs : List String} (h : (render exam today qs r).1 = .ok outputs) :
    outputs.length = exam.channels.length := by
  obtain ⟨p, hp, rfl⟩ := render_eq_ok_iff.mp (Prod.ext h rfl)
  rw [columns_eq hp.length_eq, List.length_map, List.length_range]

/-- A question that meets the same counter and the same random source in two exams with the same
channels and macros has the same texts in both, and leaves the random source the same. -/
theorem Renders.row_eq {exam other : ExamIndex} {today : String} {qs qs₂ : List Question}
    {r r' r₂ r₂' : ρ} {p p₂ : Pieces ρ} (hp : Renders exam today qs r p r')
    (hp₂ : Renders other today qs₂ r₂ p₂ r₂') (hids : other.ids = exam.ids)
    (hmacros : other.macros = exam.macros) {k k₂ : Nat} {q : Question} (hk : qs[k]? = some q)
    (hk₂ : qs₂[k₂]? = some q) (hcounter : counterAt qs k = counterAt qs₂ k₂)
    (hsource : p.source k = p₂.source k₂) :
    p.row k = p₂.row k₂ ∧ p.source (k + 1) = p₂.source (k₂ + 1) := by
  have hengine : engineOf other today = engineOf exam today := by
    unfold engineOf
    rw [hmacros]
  have hrow := hp.row k q hk
  have hrow₂ := hp₂.row k₂ q hk₂
  rw [hengine, hids, ← hcounter, ← hsource, hrow] at hrow₂
  obtain ⟨htexts, hnext⟩ := Prod.mk.inj hrow₂
  exact ⟨Except.ok.inj htexts, hnext⟩

/-- **An exam is rendered piece by piece.** It has outputs just if every piece has texts, one for
each channel, and the output of a channel is its text of every piece and a line feed. Two exams with
the same channels and macros that have a question in common, with the same counter and random
source, have the same texts of it. -/
theorem render_pieces (exam : ExamIndex) (today : String) (qs : List Question) (r r' : ρ)
    (outputs : List String) :
    (render exam today qs r = (.ok outputs, r') ↔
      ∃ p, Renders exam today qs r p r' ∧
        (∀ piece ∈ p.inOrder qs.length, piece.length = exam.channels.length) ∧
        outputs = (List.range exam.channels.length).map (p.column qs.length)) ∧
    ∀ (other : ExamIndex) (qs₂ : List Question) (r₂ r₂' : ρ) (p p₂ : Pieces ρ) (k k₂ : Nat)
      (q : Question), other.ids = exam.ids → other.macros = exam.macros →
      Renders exam today qs r p r' → Renders other today qs₂ r₂ p₂ r₂' →
      qs[k]? = some q → qs₂[k₂]? = some q → counterAt qs k = counterAt qs₂ k₂ →
      p.source k = p₂.source k₂ →
      p.row k = p₂.row k₂ ∧ p.source (k + 1) = p₂.source (k₂ + 1) := by
  constructor
  · rw [render_eq_ok_iff]
    constructor
    · rintro ⟨p, hp, rfl⟩
      exact ⟨p, hp, hp.length_eq, columns_eq hp.length_eq⟩
    · rintro ⟨p, hp, hwidth, rfl⟩
      exact ⟨p, hp, (columns_eq hwidth).symm⟩
  · intro other qs₂ r₂ r₂' p p₂ k k₂ q hids hmacros hp hp₂ hk hk₂ hcounter hsource
    exact hp.row_eq hp₂ hids hmacros hk hk₂ hcounter hsource

/-- An exam with two channels and a given beginning of the first. -/
def twoChannels (header : String) : ExamIndex where
  path := ⟨"exam.yaml"⟩
  difficulty := 0.0
  tolerance := none
  tries := none
  seed := none
  bank := none
  channels := [⟨"a.md", "a", header, "((COUNTER))."⟩, ⟨"b.md", "b", "", ""⟩]
  macros := ∅
  metadata := ∅
  parts := .count 0

/-- A scaffold that saves a variable in one channel and refers to it in the next. -/
def savingQuestion : Question :=
  { ((Question.titled "s").withChannel "a" "((SAVE,v,ID,x))").withChannel "b" "((v))" with
    scaffold := true }

/-- A question with a text in the first channel only. -/
def countingQuestion : Question := (Question.titled "t").withChannel "a" "((COUNTER))"

/-- The counting question after a scaffold. -/
def secondPieces : Pieces Stepping where
  header := ["", ""]
  row
    | 0 => ["", "x"]
    | _ => ["1", "\n1: No b - DEBUG. Question: t\n\n"]
  footer := ["0.", ""]
  source _ := zeroSource

/-- The counting question alone in an exam that begins with another text. -/
def alonePieces : Pieces Stepping where
  header := ["<0>", ""]
  row _ := ["1", "\n1: No b - DEBUG. Question: t\n\n"]
  footer := ["0.", ""]
  source _ := zeroSource

theorem render_pieces_twoChannels :
    Renders (twoChannels "") "" [savingQuestion, countingQuestion] zeroSource secondPieces
      zeroSource ∧
    Renders (twoChannels "<((COUNTER))>") "" [countingQuestion] zeroSource alonePieces
      zeroSource ∧
    render (twoChannels "") "" [savingQuestion, countingQuestion] zeroSource =
      (.ok ["10.\n", "x\n1: No b - DEBUG. Question: t\n\n\n"], zeroSource) ∧
    secondPieces.row 1 = alonePieces.row 0 ∧ secondPieces.source 2 = alonePieces.source 1 := by
  have hsecond : Renders (twoChannels "") "" [savingQuestion, countingQuestion] zeroSource
      secondPieces zeroSource := by
    refine ⟨rfl, ?_, rfl⟩
    rintro (_ | _ | k) q hq
    · obtain rfl := Option.some.inj hq
      rfl
    · obtain rfl := Option.some.inj hq
      rfl
    · exact absurd hq (by simp)
  have halone : Renders (twoChannels "<((COUNTER))>") "" [countingQuestion] zeroSource alonePieces
      zeroSource := by
    refine ⟨rfl, ?_, rfl⟩
    rintro (_ | k) q hq
    · obtain rfl := Option.some.inj hq
      rfl
    · exact absurd hq (by simp)
  obtain ⟨houtputs, hsame⟩ := render_pieces (twoChannels "") "" [savingQuestion, countingQuestion]
    zeroSource zeroSource ["10.\n", "x\n1: No b - DEBUG. Question: t\n\n\n"]
  refine ⟨hsecond, halone, houtputs.mpr ⟨secondPieces, hsecond, hsecond.length_eq, by decide⟩, ?_⟩
  exact hsame (twoChannels "<((COUNTER))>") [countingQuestion] zeroSource zeroSource secondPieces
    alonePieces 1 0 countingQuestion rfl rfl hsecond halone rfl rfl (by decide) rfl

end Rendering

end ExamPaper
