import ExamPaper.Proofs.Template.Scanning
import ExamPaper.Proofs.Text.Pieces

/-!
# Plain text

A text without backslashes, parentheses and commas means nothing to the engine: it has no markers,
is no end of an escape, and is not cut.

> Unescaping leaves plain text as it is (`Plain.unescape_eq`), and plain texts with commas between
> them are split at these commas (`splitDirective_commaText`), so that a directive of them is one call
> (`carryOut_plain`).
-/

namespace ExamPaper

namespace Template

/-- No character of the text means anything to the engine. -/
def Plain (cs : List Char) : Prop := ∀ c ∈ cs, isEscapable c = false

instance (cs : List Char) : Decidable (Plain cs) :=
  List.decidableBAll (fun c => isEscapable c = false) cs

theorem Plain.append {cs ds : List Char} (hcs : Plain cs) (hds : Plain ds) : Plain (cs ++ ds) :=
  List.forall_mem_append.mpr ⟨hcs, hds⟩

/-- A character that is not escapable is none of these four. -/
theorem ne_of_not_isEscapable {c : Char} (h : isEscapable c = false) :
    c ≠ '\\' ∧ c ≠ '(' ∧ c ≠ ')' ∧ c ≠ ',' := by
  refine ⟨?_, ?_, ?_, ?_⟩ <;> (rintro rfl; exact absurd h (by decide))

theorem Plain.not_marker {cs : List Char} (h : Plain cs) :
    ∀ c ∈ cs, c ≠ '\\' ∧ c ≠ '(' ∧ c ≠ ')' := by
  intro c hc
  obtain ⟨hescape, hopen, hclose, -⟩ := ne_of_not_isEscapable (h c hc)
  exact ⟨hescape, hopen, hclose⟩

theorem Plain.noComma {cs : List Char} (h : Plain cs) : ',' ∉ cs :=
  fun hmem => (ne_of_not_isEscapable (h ',' hmem)).2.2.2 rfl

theorem unescapeOnto_cons {c : Char} (h : c ≠ '\\') (done cs : List Char) :
    unescapeOnto done (c :: cs) = unescapeOnto (c :: done) cs := by
  rw [unescapeOnto]
  rintro d ds rfl
  exact absurd rfl h

/-- Plain text is done once it has been read. -/
theorem Plain.unescapeOnto_append {lead : List Char} (h : Plain lead) (cs : List Char) :
    ∀ done : List Char, unescapeOnto done (lead ++ cs) = unescapeOnto (lead.reverse ++ done) cs := by
  induction lead with
  | nil => intro done; rfl
  | cons c lead ih =>
    obtain ⟨hc, hlead⟩ := List.forall_mem_cons.mp h
    intro done
    rw [List.cons_append, unescapeOnto_cons (ne_of_not_isEscapable hc).1, ih hlead,
      List.reverse_cons, List.append_assoc]
    rfl

/-- A plain text has no escape to take back. -/
theorem Plain.unescape_eq {cs : List Char} (h : Plain cs) : unescape cs = cs := by
  have hdone := h.unescapeOnto_append [] []
  rw [List.append_nil, List.append_nil, unescapeOnto, List.reverse_reverse] at hdone
  exact hdone

theorem Plain.not_endsInEscape {cs : List Char} (h : Plain cs) : endsInEscape cs = false := by
  have hnone : cs.reverse.takeWhile (· = '\\') = [] := by
    cases hcs : cs.reverse with
    | nil => rfl
    | cons c ds =>
      have hc : c ∈ cs := List.mem_reverse.mp (hcs ▸ List.mem_cons_self)
      exact List.takeWhile_cons_of_neg (by simpa using (h.not_marker c hc).1)
  unfold endsInEscape
  rw [hnone]
  rfl

/-! ## Arguments -/

/-- The arguments after the first one, each after a comma. -/
def commaText (args : List (List Char)) : List Char := args.flatMap (',' :: ·)

/-- Commas between plain texts are no markers. -/
theorem not_marker_commaText {args : List (List Char)} (h : ∀ arg ∈ args, Plain arg) :
    ∀ c ∈ commaText args, c ≠ '\\' ∧ c ≠ '(' ∧ c ≠ ')' := by
  intro c hc
  obtain ⟨arg, harg, hc⟩ := List.mem_flatMap.mp hc
  rcases List.mem_cons.mp hc with rfl | hc
  · decide
  · exact (h arg harg).not_marker c hc

/-- Plain texts are split at the commas between them. -/
theorem splitOnto_commaText {args : List (List Char)} (h : ∀ arg ∈ args, Plain arg) :
    ∀ piece : List Char, Text.splitOnto ',' piece (commaText args) = piece.reverse :: args := by
  induction args with
  | nil => intro piece; rfl
  | cons arg args ih =>
    obtain ⟨harg, hargs⟩ := List.forall_mem_cons.mp h
    intro piece
    show Text.splitOnto ',' piece (',' :: (arg ++ commaText args)) = _
    rw [Text.splitOnto, if_pos rfl, Text.splitOnto_append_of_notMem harg.noComma, ih hargs,
      List.append_nil, List.reverse_reverse]

/-- Plain pieces are not joined. -/
theorem joinEscaped_none {pieces : List (List Char)} (h : ∀ piece ∈ pieces, Plain piece) :
    joinEscaped none pieces = pieces := by
  induction pieces with
  | nil => rfl
  | cons piece pieces ih =>
    obtain ⟨hpiece, hpieces⟩ := List.forall_mem_cons.mp h
    rw [joinEscaped, hpiece.not_endsInEscape, if_neg (by decide), ih hpieces]

/-- A directive of plain arguments is split into them. -/
theorem splitDirective_commaText {name : List Char} {args : List (List Char)} (hname : Plain name)
    (hargs : ∀ arg ∈ args, Plain arg) :
    Engine.splitDirective (name ++ commaText args) =
      (String.ofList name, args.map String.ofList) := by
  have hsplit : arguments (name ++ commaText args) = name :: args := by
    unfold arguments Text.splitAtChar
    rw [Text.splitOnto_append_of_notMem hname.noComma, splitOnto_commaText hargs, List.append_nil,
      List.reverse_reverse]
    exact joinEscaped_none (List.forall_mem_cons.mpr ⟨hname, hargs⟩)
  unfold Engine.splitDirective
  rw [hsplit]

/-- A directive of plain arguments is one call, and what the call stands for takes its place. -/
theorem carryOut_plain {ρ : Type} [Draws ρ] {e : Engine} {name : List Char}
    {args : List (List Char)} (hname : Plain name) (hline : String.ofList name ≠ "DNL")
    (hargs : ∀ arg ∈ args, Plain arg) (after : List Char) (s : State) (r : ρ) :
    e.carryOut (name ++ commaText args) after s r =
      (e.dispatch (String.ofList name) (args.map String.ofList) s r).map
        fun text => text.toList ++ after := by
  unfold Engine.carryOut
  rw [splitDirective_commaText hname hargs]
  exact if_neg hline

end Template

end ExamPaper
