import ExamPaper.Proofs.Template.Scanning
import Mathlib.Data.List.Induction

/-!
# The first directive of a text

`Piece.read` takes a text apart from the left: a backslash goes with the character after it, `((` and
`))` go together, and everything else is read by itself. What comes first in a text can be told from
its pieces alone, without a scanner:

> Nothing is found if there is no opening marker, and a marker without an end if no closing marker
> follows the first opening one. Otherwise the first such closing marker ends a directive that begins
> at the last opening marker before it (`locate_read`).

The pieces before a place in a text depend on what stands at that place by its first character only
(`Piece.read_append`), so parts that the pieces cut a text into are read, each for itself, as they
are in the text.
-/

namespace ExamPaper

namespace Template

/-- What a text is read in: a backslash and the character after it, a marker, or a character by
itself. -/
inductive Piece where
  | escape (c : Char)
  | opening
  | closing
  | single (c : Char)
  deriving DecidableEq, Repr

namespace Piece

/-- The text of a piece. -/
def text : Piece → List Char
  | escape c => ['\\', c]
  | opening => ['(', '(']
  | closing => [')', ')']
  | single c => [c]

/-- The text of pieces one after another. -/
def textOf (ps : List Piece) : List Char := ps.flatMap text

/-- The pieces of a text. -/
def read : List Char → List Piece
  | [] => []
  | '\\' :: c :: rest => escape c :: read rest
  | '(' :: '(' :: rest => opening :: read rest
  | ')' :: ')' :: rest => closing :: read rest
  | c :: rest => single c :: read rest

/-- The pieces from the first opening marker on. -/
def fromOpening (ps : List Piece) : List Piece := ps.dropWhile (· ≠ opening)

/-- What follows does not make more of the piece. -/
def Stays : Piece → List Char → Prop
  | single c, rest => Scanner.Lone c rest
  | _, _ => True

/-! ## Reading a piece -/

@[simp] theorem textOf_nil : textOf [] = [] := rfl

@[simp] theorem textOf_cons (p : Piece) (ps : List Piece) :
    textOf (p :: ps) = p.text ++ textOf ps := rfl

@[simp] theorem textOf_append (ps qs : List Piece) : textOf (ps ++ qs) = textOf ps ++ textOf qs :=
  List.flatMap_append

/-- A character on its own is a piece. -/
theorem read_lone {c : Char} {rest : List Char} (h : Scanner.Lone c rest) :
    read (c :: rest) = single c :: read rest := by
  obtain ⟨hescape, hopen, hclose⟩ := h
  rw [read.eq_def]
  split
  · contradiction
  · rename_i heq
    obtain ⟨rfl, rfl⟩ := List.cons.inj heq
    exact absurd (hescape rfl) (by simp)
  · rename_i heq
    obtain ⟨rfl, rfl⟩ := List.cons.inj heq
    exact absurd rfl (hopen rfl)
  · rename_i heq
    obtain ⟨rfl, rfl⟩ := List.cons.inj heq
    exact absurd rfl (hclose rfl)
  · rename_i heq
    obtain ⟨rfl, rfl⟩ := List.cons.inj heq
    rfl

/-- A piece is read from its text, if nothing that follows joins it. -/
theorem read_text_append {p : Piece} {rest : List Char} (h : p.Stays rest) :
    read (p.text ++ rest) = p :: read rest := by
  cases p with
  | escape c => simp [text, read]
  | opening => simp [text, read]
  | closing => simp [text, read]
  | single c => exact read_lone h

/-- Every text that is not empty begins with a piece. -/
theorem exists_piece {cs : List Char} (h : cs ≠ []) :
    ∃ (p : Piece) (rest : List Char), cs = p.text ++ rest ∧ p.Stays rest := by
  cases Scanner.pieces cs with
  | done => exact absurd rfl h
  | @escape c rest _ => exact ⟨escape c, rest, rfl, trivial⟩
  | @opening rest _ => exact ⟨opening, rest, rfl, trivial⟩
  | @closing rest _ => exact ⟨closing, rest, rfl, trivial⟩
  | @lone c rest hlone _ => exact ⟨single c, rest, rfl, hlone⟩

/-- The first piece of a text stands at its start, and the others are those of what follows. -/
theorem exists_of_read_eq_cons {cs : List Char} {p : Piece} {ps : List Piece}
    (h : read cs = p :: ps) : ∃ rest, cs = p.text ++ rest ∧ p.Stays rest ∧ read rest = ps := by
  have hne : cs ≠ [] := by
    rintro rfl
    exact absurd h (by simp [read])
  obtain ⟨q, rest, rfl, hstays⟩ := exists_piece hne
  rw [read_text_append hstays] at h
  obtain ⟨rfl, rfl⟩ := List.cons.inj h
  exact ⟨rest, rfl, hstays, rfl⟩

/-- Whether more is made of a piece depends on the next character only. -/
theorem Stays.of_head? {p : Piece} {rest rest' : List Char} (h : p.Stays rest)
    (hhead : ∀ d, rest'.head? = some d → rest.head? = some d) : p.Stays rest' := by
  cases p with
  | single c =>
    refine ⟨fun hc => ?_, fun hc hd => h.2.1 hc (hhead _ hd), fun hc hd => h.2.2 hc (hhead _ hd)⟩
    cases rest' with
    | nil => rfl
    | cons d _ =>
      have hnone := hhead d rfl
      rw [h.1 hc] at hnone
      exact absurd hnone (by simp)
  | _ => trivial

/-- The first pieces of a text are those of the text that they make up, whatever follows, as long as
what follows begins with the same character or is empty. -/
theorem read_append : ∀ {before : List Piece} {cs : List Char} {after : List Piece},
    read cs = before ++ after → ∃ rest, cs = textOf before ++ rest ∧ read rest = after ∧
      ∀ rest', (∀ d, rest'.head? = some d → rest.head? = some d) →
        read (textOf before ++ rest') = before ++ read rest'
  | [], cs, after, h => ⟨cs, rfl, h, fun _ _ => rfl⟩
  | p :: before, cs, after, h => by
    obtain ⟨next, rfl, hstays, hnext⟩ := exists_of_read_eq_cons h
    obtain ⟨rest, rfl, hrest, hothers⟩ := read_append hnext
    refine ⟨rest, by simp, hrest, fun rest' hhead => ?_⟩
    have hstays' : p.Stays (textOf before ++ rest') := by
      refine hstays.of_head? fun d hd => ?_
      rw [List.head?_append] at hd ⊢
      cases hbefore : (textOf before).head? with
      | none => rw [hbefore] at hd; exact hhead d hd
      | some first => rw [hbefore] at hd; exact hd
    rw [textOf_cons, List.append_assoc, read_text_append hstays', hothers rest' hhead]
    rfl

/-- The pieces of a text make up the text. -/
theorem textOf_read (cs : List Char) : textOf (read cs) = cs := by
  fun_induction read cs with
  | case1 => rfl
  | case2 c rest ih => rw [textOf_cons, ih]; rfl
  | case3 rest ih => rw [textOf_cons, ih]; rfl
  | case4 rest ih => rw [textOf_cons, ih]; rfl
  | case5 c rest _ _ _ ih => rw [textOf_cons, ih]; rfl

/-! ## Markers among pieces -/

/-- Pieces before the first marker are dropped. -/
theorem fromOpening_cons {p : Piece} (h : p ≠ opening) (ps : List Piece) :
    fromOpening (p :: ps) = fromOpening ps :=
  List.dropWhile_cons_of_pos (by simpa using h)

theorem fromOpening_opening (ps : List Piece) : fromOpening (opening :: ps) = opening :: ps :=
  List.dropWhile_cons_of_neg (by simp)

theorem mem_of_mem_fromOpening {p : Piece} {ps : List Piece} (h : p ∈ fromOpening ps) : p ∈ ps :=
  (List.dropWhile_sublist _).subset h

/-- What has no opening marker has nothing from one on. -/
theorem fromOpening_of_notMem {ps : List Piece} (h : opening ∉ ps) : fromOpening ps = [] := by
  induction ps with
  | nil => rfl
  | cons p ps ih =>
    obtain ⟨hp, hps⟩ := not_or.mp (mt List.mem_cons.mpr h)
    rw [fromOpening_cons (Ne.symm hp), ih hps]

/-- A marker in some pieces, and the last opening marker before it. -/
theorem exists_last_opening : ∀ {ps : List Piece}, opening ∈ ps →
    ∃ before inner, ps = before ++ opening :: inner ∧ opening ∉ inner
  | p :: ps, h => by
    by_cases hps : opening ∈ ps
    · obtain ⟨before, inner, rfl, hinner⟩ := exists_last_opening hps
      exact ⟨p :: before, inner, rfl, hinner⟩
    · obtain rfl := (List.mem_cons.mp h).resolve_right hps
      exact ⟨[], ps, rfl, hps⟩

/-- What follows an opening marker belongs to what is from the first one on. -/
theorem fromOpening_append_of_mem {ps : List Piece} (h : opening ∈ ps) (qs : List Piece) :
    fromOpening (ps ++ qs) = fromOpening ps ++ qs := by
  induction ps with
  | nil => exact absurd h List.not_mem_nil
  | cons p ps ih =>
    by_cases hp : p = opening
    · subst hp
      rw [List.cons_append, fromOpening_opening, fromOpening_opening, List.cons_append]
    · have hps : opening ∈ ps := (List.mem_cons.mp h).resolve_left (Ne.symm hp)
      rw [List.cons_append, fromOpening_cons hp, fromOpening_cons hp, ih hps]

/-- A piece from the first opening marker on either follows one of the first pieces, or is one of the
others. -/
theorem mem_fromOpening_append {p : Piece} {ps qs : List Piece} (h : p ∈ fromOpening (ps ++ qs)) :
    p ∈ fromOpening ps ∨ p ∈ qs := by
  unfold fromOpening at h ⊢
  rw [List.dropWhile_append] at h
  split at h
  · exact .inr ((List.dropWhile_sublist _).subset h)
  · exact List.mem_append.mp h

/-- The pieces before a directive, those in it, and those after it. -/
structure Cut (ps before inner after : List Piece) : Prop where
  eq : ps = before ++ opening :: (inner ++ closing :: after)
  first : closing ∉ fromOpening before
  not_opening : opening ∉ inner
  not_closing : closing ∉ inner

/-- A closing marker after an opening one ends a directive, if it is the first such marker. -/
theorem exists_cut : ∀ {ps : List Piece}, closing ∈ fromOpening ps →
    ∃ before inner after, Cut ps before inner after
  | [], h => absurd h List.not_mem_nil
  | p :: ps, h => by
    by_cases hp : p = opening
    · subst hp
      rw [fromOpening_opening] at h
      have hps : closing ∈ ps := (List.mem_cons.mp h).resolve_left (by decide)
      obtain ⟨begun, after, rfl, hbegun⟩ := List.eq_append_cons_of_mem hps
      -- the directive that is closed is the one opened last
      obtain ⟨before, inner, hlast, hinner⟩ := exists_last_opening (List.mem_cons_self (l := begun))
      have hclosing : closing ∉ before ++ opening :: inner := by
        rw [← hlast]
        simpa using hbegun
      rw [List.mem_append, List.mem_cons, not_or, not_or] at hclosing
      refine ⟨before, inner, after, ?_, mt mem_of_mem_fromOpening hclosing.1, hinner,
        hclosing.2.2⟩
      rw [← List.cons_append, hlast, List.append_assoc]
      rfl
    · rw [fromOpening_cons hp] at h
      obtain ⟨before, inner, after, rfl, hfirst, hopening, hclosing⟩ := exists_cut h
      exact ⟨p :: before, inner, after, rfl, by rwa [fromOpening_cons hp], hopening, hclosing⟩

/-! ## What the parts of a text are read in -/

section

variable {cs : List Char} {before inner after : List Piece} (h : Cut (read cs) before inner after)

include h

/-- The parts of a cut text make up the text. -/
theorem Cut.eq_append :
    cs = textOf before ++ (['(', '('] ++ (textOf inner ++ ([')', ')'] ++ textOf after))) := by
  have htext := textOf_read cs
  rw [h.eq] at htext
  simpa [text] using htext.symm

/-- The part before the directive is read as it is in the text. -/
theorem Cut.read_before : read (textOf before) = before := by
  obtain ⟨rest, -, -, hothers⟩ := read_append h.eq
  simpa [read] using hothers [] (by simp)

/-- So is the directive without its markers. -/
theorem Cut.read_inner : read (textOf inner) = inner := by
  obtain ⟨rest, -, hrest, -⟩ := read_append h.eq
  obtain ⟨rest, -, -, hothers⟩ := @read_append (opening :: inner) _ _ hrest
  have hopened := hothers [] (by simp)
  rw [List.append_nil] at hopened
  exact (List.cons.inj ((read_text_append (p := opening) trivial).symm.trans hopened)).2.trans
    (List.append_nil inner)

/-- So is the part after it. -/
theorem Cut.read_after : read (textOf after) = after := by
  have hparts : read cs = (before ++ opening :: (inner ++ [closing])) ++ after := by
    rw [h.eq]
    simp
  obtain ⟨rest, -, hrest, -⟩ := read_append hparts
  rw [← hrest, textOf_read]

end

end Piece

namespace Scanner

open Piece

/-! ## A scanner among the pieces -/

/-- The scanner after a piece that closes no marker. -/
def pass (s : Scanner) : Piece → Scanner
  | .opening => s.opened
  | p => s.advance p.text

/-- A scanner that has read some pieces, none of which closed a marker. -/
def past (ps : List Piece) (rest : List Char) : Scanner := { ps.foldl pass (ofText []) with rest }

/-- A piece that opens no marker is read like its text. -/
theorem pass_of_ne {p : Piece} (h : p ≠ .opening) (s : Scanner) : s.pass p = s.advance p.text := by
  cases p with
  | opening => exact absurd rfl h
  | _ => rfl

theorem pass_withRest (p : Piece) (s : Scanner) (rest : List Char) :
    pass { s with rest } p = { s.pass p with rest } := by
  cases p with
  | opening => rfl
  | _ => exact advance_withRest _ _ _

/-- A piece is passed unless it closes a marker. -/
theorem next_pass {p : Piece} {s : Scanner} (h : p.Stays s.rest)
    (hclosing : p = .closing → s.layers = []) :
    next { s with rest := p.text ++ s.rest } = (s.pass p).next := by
  cases p with
  | escape c => exact next_escape
  | opening => exact next_open
  | closing =>
    have hlayers := hclosing rfl
    have hlayers' : (s.advance [')']).layers = [] := (layers_advance_eq_nil _ _).mpr hlayers
    show next { s with rest := ')' :: ')' :: s.rest } = next (s.advance ([')'] ++ [')']))
    rw [next_stray_of_layers hlayers, next_stray_of_layers hlayers', ← advance_append,
      ← advance_withRest]
  | single c => exact next_lone h

theorem past_nil (rest : List Char) : past [] rest = ofText rest := rfl

/-- One piece more is passed. -/
theorem past_concat (ps : List Piece) (p : Piece) (rest : List Char) :
    past (ps ++ [p]) rest = (past ps rest).pass p := by
  unfold past
  rw [List.foldl_append, pass_withRest]
  rfl

/-- No marker is open after pieces that open none. -/
theorem layers_past (ps : List Piece) (rest : List Char) :
    (past ps rest).layers = [] ↔ .opening ∉ ps := by
  induction ps using List.reverseRecOn with
  | nil => simp [past_nil, ofText]
  | append_singleton ps p ih =>
    rw [past_concat]
    by_cases hp : p = .opening
    · subst hp
      simp [pass, opened]
    · rw [pass_of_ne hp, layers_advance_eq_nil, ih]
      simp [Ne.symm hp]

/-- What has been read are the texts of the pieces. -/
theorem readText_past (ps : List Piece) (rest : List Char) :
    (past ps rest).readText = textOf ps := by
  induction ps using List.reverseRecOn with
  | nil => rfl
  | append_singleton ps p ih =>
    rw [past_concat, textOf_append]
    by_cases hp : p = .opening
    · subst hp
      exact (readText_opened _).trans (congrArg (· ++ ['(', '(']) ih)
    · rw [pass_of_ne hp, readText_advance, ih]
      simp

/-- Pieces without opening markers are all read to the same layer. -/
theorem past_append {ps : List Piece} (h : .opening ∉ ps) (before : List Piece)
    (rest : List Char) : past (before ++ ps) rest = (past before rest).advance (textOf ps) := by
  induction ps using List.reverseRecOn with
  | nil => rw [List.append_nil]; exact (advance_nil _).symm
  | append_singleton ps p ih =>
    rw [List.mem_append, List.mem_singleton, not_or] at h
    rw [← List.append_assoc, past_concat, ih h.1, pass_of_ne (Ne.symm h.2), textOf_append,
      advance_append]
    simp

/-- A scanner reads on to any piece before which no marker is closed. -/
theorem next_past : ∀ {before : List Piece} {done : List Piece} {cs : List Char}
    {after : List Piece}, read cs = before ++ after → .closing ∉ fromOpening (done ++ before) →
      next (past done cs) = next (past (done ++ before) (textOf after))
  | [], done, cs, after, h, _ => by
    rw [← (show read cs = after from h), textOf_read, List.append_nil]
  | p :: before, done, cs, after, h, hclosing => by
    obtain ⟨rest, rfl, hstays, hrest⟩ := exists_of_read_eq_cons h
    have hparts : done ++ p :: before = (done ++ [p]) ++ before := List.append_cons ..
    have hfirst : p = .closing → (past done rest).layers = [] := by
      rintro rfl
      rw [layers_past]
      intro hopening
      rw [fromOpening_append_of_mem hopening] at hclosing
      exact hclosing (List.mem_append_right _ List.mem_cons_self)
    rw [hparts] at hclosing ⊢
    rw [← next_past hrest hclosing, past_concat]
    exact next_pass hstays hfirst

variable {cs : List Char}

/-- The search goes past pieces that close nothing. -/
theorem next_ofText {before after : List Piece} (h : read cs = before ++ after)
    (hclosing : .closing ∉ fromOpening before) :
    (ofText cs).next = next (past before (textOf after)) :=
  @next_past _ [] _ _ h hclosing

/-- A text that opens no marker has no directive. -/
theorem next_ofText_finished (h : .opening ∉ read cs) : (ofText cs).next = .finished cs := by
  have hclosing : Piece.closing ∉ fromOpening (read cs) := by simp [fromOpening_of_notMem h]
  have hlayer : past (read cs) [] = (ofText []).advance cs := by
    have hread := past_append h [] []
    rwa [textOf_read] at hread
  rw [next_ofText (List.append_nil _).symm hclosing, textOf_nil, hlayer]
  simp [next, scan, advance, ofText]

/-- A text that opens a marker and closes none ends in an open directive. -/
theorem next_ofText_unterminated (h : .opening ∈ read cs)
    (hclosing : .closing ∉ fromOpening (read cs)) : ∃ rest, (ofText cs).next = .unterminated rest := by
  rw [next_ofText (List.append_nil _).symm hclosing, textOf_nil]
  have hlayers : (past (read cs) []).layers ≠ [] := mt (layers_past _ _).mp (not_not_intro h)
  obtain ⟨layer, layers, hlayer⟩ := List.exists_cons_of_ne_nil hlayers
  have hrest : (past (read cs) []).rest = [] := rfl
  unfold next
  rw [hlayer, hrest]
  exact ⟨_, rfl⟩

/-- The directive that the pieces of a text show is the one that is found. -/
theorem next_ofText_directive {before inner after : List Piece}
    (h : Cut (read cs) before inner after) :
    (ofText cs).next = .directive (textOf inner) (past before (textOf after)) := by
  have hparts : read cs = (before ++ .opening :: inner) ++ .closing :: after := by
    rw [h.eq, List.append_assoc]
    rfl
  have hclosing : Piece.closing ∉ fromOpening (before ++ .opening :: inner) := by
    intro hmem
    rcases mem_fromOpening_append hmem with hbefore | hinner
    · exact h.first hbefore
    · exact h.not_closing ((List.mem_cons.mp hinner).resolve_left (by decide))
  rw [next_ofText hparts hclosing, List.append_cons, past_append h.not_opening, past_concat]
  exact next_resume_close (textOf inner) (past before (textOf after))

end Scanner

/-! ## What is found first -/

section

open Piece

/-- What a text begins with can be told from its pieces in one of three ways. -/
theorem locate_cases (cs : List Char) :
    (.opening ∉ read cs ∧ locate cs = .ok none) ∨
    (.opening ∈ read cs ∧ .closing ∉ fromOpening (read cs) ∧ ∃ rest, locate cs = .error rest) ∨
    (.closing ∈ fromOpening (read cs) ∧ ∃ before inner after, Cut (read cs) before inner after ∧
      locate cs = .ok (some ⟨textOf before, textOf inner, textOf after⟩)) := by
  unfold locate
  by_cases hopening : .opening ∈ read cs
  · by_cases hclosing : .closing ∈ fromOpening (read cs)
    · obtain ⟨before, inner, after, hcut⟩ := exists_cut hclosing
      refine .inr (.inr ⟨hclosing, before, inner, after, hcut, ?_⟩)
      rw [Scanner.next_ofText_directive hcut]
      dsimp only
      rw [Scanner.readText_past]
      rfl
    · obtain ⟨rest, hnext⟩ := Scanner.next_ofText_unterminated hopening hclosing
      exact .inr (.inl ⟨hopening, hclosing, rest, by rw [hnext]⟩)
  · exact .inl ⟨hopening, by rw [Scanner.next_ofText_finished hopening]⟩

/-- **The first directive.** Let a text be read in pieces. Nothing is found in it just if there is no
opening marker, and a marker without an end just if there is one and no closing marker follows the
first of them. Otherwise a directive is found; with its markers, what is before it and what is after
it, it makes up the text, and the four parts are read as they are in the text. There is no marker in
the directive, so nothing is found in it, and no closing marker follows an opening one before it, so
no directive is found there: its closing marker is the first that follows an opening one, and its
opening marker the last before that. -/
theorem locate_read (cs : List Char) :
    (locate cs = .ok none ↔ .opening ∉ read cs) ∧
    ((∃ rest, locate cs = .error rest) ↔
      .opening ∈ read cs ∧ .closing ∉ fromOpening (read cs)) ∧
    ((∃ found, locate cs = .ok (some found)) ↔ .closing ∈ fromOpening (read cs)) ∧
    ∀ found, locate cs = .ok (some found) →
      found.before ++ ['(', '('] ++ found.body ++ [')', ')'] ++ found.after = cs ∧
      Cut (read cs) (read found.before) (read found.body) (read found.after) ∧
      locate found.body = .ok none ∧ ∀ other, locate found.before ≠ .ok (some other) := by
  rcases locate_cases cs with ⟨hopening, hnone⟩ | ⟨hopening, hclosing, rest, herror⟩ |
      ⟨hclosing, before, inner, after, hcut, hsome⟩
  · have hclosing : Piece.closing ∉ fromOpening (read cs) := by simp [fromOpening_of_notMem hopening]
    simp [hnone, hopening, hclosing]
  · simp [herror, hopening, hclosing]
  · have hopening : Piece.opening ∈ read cs := by simp [hcut.eq]
    refine ⟨by simp [hsome, hopening], by simp [hsome, hclosing], by simp [hsome, hclosing], ?_⟩
    intro found hfound
    obtain rfl := Option.some.inj (Except.ok.inj (hsome.symm.trans hfound))
    dsimp only
    rw [hcut.read_before, hcut.read_inner, hcut.read_after]
    refine ⟨by rw [eq_comm]; simpa using hcut.eq_append, hcut, ?_, ?_⟩
    · rcases locate_cases (textOf inner) with ⟨-, hinner⟩ | ⟨hinner, -⟩ | ⟨hinner, -⟩
      · exact hinner
      · rw [hcut.read_inner] at hinner
        exact absurd hinner hcut.not_opening
      · rw [hcut.read_inner] at hinner
        exact absurd (mem_of_mem_fromOpening hinner) hcut.not_closing
    · intro other hother
      rcases locate_cases (textOf before) with ⟨-, hbefore⟩ | ⟨-, -, _, hbefore⟩ | ⟨hbefore, -⟩
      · exact absurd (hbefore.symm.trans hother) (by simp)
      · exact absurd (hbefore.symm.trans hother) (by simp)
      · rw [hcut.read_before] at hbefore
        exact absurd hbefore hcut.first

example : locate "))\\(((x ((((a\\))) b)))".toList =
    .ok (some ⟨"))\\(((x ((".toList, "a\\)".toList, " b)))".toList⟩) := rfl

end

end Template

end ExamPaper
