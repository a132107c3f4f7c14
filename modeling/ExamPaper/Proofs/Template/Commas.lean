import ExamPaper.Proofs.Template.Cutting
import ExamPaper.Proofs.Template.Offsets

/-!
# Commas and backslashes

A comma is escaped if a backslash takes it along when the text is read from the left. What stands
before a comma that is not has been read to its end (`ReadWhole`), and so has the whole text between
the markers of a directive, since the scanner reads it in the same way.

> A text is cut at the commas that are not escaped, and at no other place. The arguments of a
> directive do not end in an escape, and put together with escaped commas they are one argument
> (`arguments_cuts`).
-/

namespace ExamPaper

namespace Template

/-- What texts keep when they are put one after another, they keep with a separator between them. -/
theorem intercalate_of_append {P : List Char → Prop} (hnil : P [])
    (happend : ∀ {cs ds}, P cs → P ds → P (cs ++ ds)) {separator : List Char}
    (hseparator : P separator) : ∀ {pieces : List (List Char)}, (∀ piece ∈ pieces, P piece) →
      P (separator.intercalate pieces)
  | [], _ => hnil
  | [piece], h => by simpa using h
  | piece :: next :: pieces, h => by
    obtain ⟨hpiece, hpieces⟩ := List.forall_mem_cons.mp h
    rw [List.intercalate_cons_cons]
    exact happend (happend hpiece hseparator)
      (intercalate_of_append hnil happend hseparator hpieces)

/-! ## Texts read to their end -/

/-- Read from the left, with a backslash taking the character after it along, the text has no
backslash that waits for a character. -/
inductive ReadWhole : List Char → Prop where
  | done : ReadWhole []
  | escape {c : Char} {rest : List Char} : ReadWhole rest → ReadWhole ('\\' :: c :: rest)
  | character {c : Char} {rest : List Char} : c ≠ '\\' → ReadWhole rest → ReadWhole (c :: rest)

/-- Texts in which no escape is left open can be put together. -/
theorem ReadWhole.append {cs ds : List Char} (hcs : ReadWhole cs) (hds : ReadWhole ds) :
    ReadWhole (cs ++ ds) := by
  induction hcs with
  | done => exact hds
  | escape _ ih => exact ih.escape
  | character hescape _ ih => exact ih.character hescape

theorem Uncut.readWhole {cs : List Char} (h : Uncut cs) : ReadWhole cs := by
  induction h with
  | done => exact .done
  | escape _ ih => exact ih.escape
  | character hescape _ _ ih => exact ih.character hescape

/-- A complete escape at the start leaves nothing open. -/
theorem readWhole_escape_iff {c : Char} {cs : List Char} :
    ReadWhole ('\\' :: c :: cs) ↔ ReadWhole cs := by
  refine ⟨fun h => ?_, ReadWhole.escape⟩
  cases h with
  | escape h => exact h
  | character hescape _ => exact absurd rfl hescape

/-- Nor does a character other than a backslash. -/
theorem readWhole_character_iff {c : Char} (hescape : c ≠ '\\') {cs : List Char} :
    ReadWhole (c :: cs) ↔ ReadWhole cs := by
  refine ⟨fun h => ?_, ReadWhole.character hescape⟩
  cases h with
  | escape _ => exact absurd rfl hescape
  | character _ h => exact h

theorem not_readWhole_backslash : ¬ReadWhole ['\\'] := by
  intro h
  cases h with
  | character hescape _ => exact hescape rfl

/-- Where no escape is pending, a text is read to its end just if none is pending after it. -/
theorem readWhole_iff_escapes : ∀ (cs : List Char) {before : List Char}, escapes before = false →
    (ReadWhole cs ↔ escapes (cs.reverse ++ before) = false)
  | [], before, hbefore => iff_of_true .done hbefore
  | c :: cs, before, hbefore => by
    by_cases hescape : c = '\\'
    · subst hescape
      cases cs with
      | nil =>
        have hends : escapes ('\\' :: before) = true := by rw [escapes, hbefore]; rfl
        exact iff_of_false not_readWhole_backslash (by simp [hends])
      | cons d cs =>
        rw [readWhole_escape_iff, readWhole_iff_escapes cs (escapes_escape hbefore d)]
        simp
    · rw [readWhole_character_iff hescape, readWhole_iff_escapes cs (escapes_cons hescape before)]
      simp
  termination_by cs => cs.length

/-- A text is read to its end just if it does not end in an open escape. -/
theorem readWhole_iff (cs : List Char) : ReadWhole cs ↔ endsInEscape cs = false := by
  have hnone : escapes [] = false := rfl
  rw [endsInEscape_eq, readWhole_iff_escapes cs hnone, List.append_nil]

/-! ## Where a text is cut -/

/-- There is at least one piece. -/
theorem cutOnto_ne_nil (piece rest : List Char) : cutOnto piece rest ≠ [] := by
  fun_induction cutOnto piece rest with
  | case1 | case3 => exact List.cons_ne_nil _ _
  | case2 _ _ _ ih | case4 _ _ _ _ _ ih => exact ih

/-- The pieces with commas between them are the text. -/
theorem intercalate_cutOnto (piece rest : List Char) :
    [','].intercalate (cutOnto piece rest) = piece.reverse ++ rest := by
  fun_induction cutOnto piece rest with
  | case1 piece => simp
  | case2 piece c rest ih => rw [ih]; simp
  | case3 piece rest _ ih =>
    rw [List.intercalate_cons_of_ne_nil (cutOnto_ne_nil _ _), ih]
    simp
  | case4 piece c rest _ _ ih => rw [ih]; simp

/-- A text is cut at the comma after what has been read to its end. -/
theorem ReadWhole.cutOnto_comma {before : List Char} (h : ReadWhole before) (after : List Char) :
    ∀ piece : List Char,
      cutOnto piece (before ++ ',' :: after) = cutOnto piece before ++ cutOnto [] after := by
  induction h with
  | done => exact fun piece => Template.cutOnto_comma piece after
  | escape _ ih => exact fun piece => ih _
  | @character c before hescape _ ih =>
    intro piece
    by_cases hcomma : c = ','
    · subst hcomma
      rw [List.cons_append, Template.cutOnto_comma, Template.cutOnto_comma, ih]
      rfl
    · rw [List.cons_append, cutOnto_cons hescape hcomma, cutOnto_cons hescape hcomma, ih]

/-- The pieces are not cut any further: those before the last one, and the last one if the text is
read to its end. -/
theorem uncut_of_cutOnto {piece rest : List Char} (hpiece : Uncut piece.reverse)
    {front back : List (List Char)} (h : cutOnto piece rest = front ++ back)
    (hlast : back = [] → ReadWhole rest) : ∀ found ∈ front, Uncut found := by
  fun_induction cutOnto piece rest generalizing front with
  | case1 piece =>
    intro found hfound
    have hmem : found ∈ [piece.reverse] := h ▸ List.mem_append_left back hfound
    rwa [List.mem_singleton.mp hmem]
  | case2 piece c rest ih =>
    refine ih ?_ h fun hback => readWhole_escape_iff.mp (hlast hback)
    simpa using hpiece.append (Uncut.done.escape : Uncut ['\\', c])
  | case3 piece rest _ ih =>
    cases front with
    | nil => exact List.forall_mem_nil _
    | cons found front =>
      obtain ⟨rfl, hrest⟩ := List.cons.inj h
      refine List.forall_mem_cons.mpr ⟨hpiece, ih .done hrest fun hback => ?_⟩
      exact (readWhole_character_iff (by decide)).mp (hlast hback)
  | case4 piece c rest hpair hcomma ih =>
    by_cases hescape : c = '\\'
    · subst hescape
      cases rest with
      | cons d rest => exact absurd rfl (hpair d rest rfl)
      | nil =>
        -- the last piece, and the text is not read to its end
        rw [cutOnto] at h
        rcases List.singleton_eq_append_iff.mp h with ⟨rfl, -⟩ | ⟨-, hback⟩
        · exact List.forall_mem_nil _
        · exact absurd (hlast hback) not_readWhole_backslash
    · refine ih ?_ h fun hback => (readWhole_character_iff hescape).mp (hlast hback)
      simpa using hpiece.append (Uncut.done.character hescape hcomma)

/-- Arguments are cut no further, all of them if the text is read to its end. -/
theorem uncut_of_arguments {body : List Char} {front back : List (List Char)}
    (h : arguments body = front ++ back) (hlast : back = [] → ReadWhole body) :
    ∀ piece ∈ front, Uncut piece := by
  have hnil : Uncut (List.reverse []) := .done
  rw [arguments_eq] at h
  exact uncut_of_cutOnto hnil h hlast

/-- The parts before and after a comma are the texts of the pieces before and after it. -/
def CutAt (before after : List Char) (pieces : List (List Char)) : Prop :=
  ∃ front back, front ≠ [] ∧ back ≠ [] ∧ pieces = front ++ back ∧
    [','].intercalate front = before ∧ [','].intercalate back = after

/-- A text is cut at a comma just if what stands before it is read to its end. -/
theorem cutAt_arguments_iff (before after : List Char) :
    CutAt before after (arguments (before ++ ',' :: after)) ↔ ReadWhole before := by
  constructor
  · rintro ⟨front, back, -, hback, hpieces, rfl, -⟩
    have hcomma : ReadWhole [','] := .character (by decide) .done
    refine intercalate_of_append .done ReadWhole.append hcomma fun piece hpiece => ?_
    exact (uncut_of_arguments hpieces (absurd · hback) piece hpiece).readWhole
  · intro h
    rw [arguments_eq]
    refine ⟨cutOnto [] before, cutOnto [] after, cutOnto_ne_nil _ _, cutOnto_ne_nil _ _,
      h.cutOnto_comma after [], ?_, ?_⟩ <;> exact intercalate_cutOnto [] _

/-! ## What stands between the markers of a directive -/

namespace Scanner

/-- What has been read since each open marker has been read to its end. -/
def Whole (s : Scanner) : Prop := ∀ layer ∈ s.layers, escapes layer = false

/-- Reading on keeps this, if what is read leaves no escape open. -/
theorem Whole.advance {s : Scanner} (h : s.Whole) (cs : List Char)
    (hcs : ∀ layer, escapes layer = false → escapes (cs.reverse ++ layer) = false) :
    (s.advance cs).Whole := by
  obtain ⟨outer, layers, rest⟩ := s
  cases layers with
  | nil => exact h
  | cons layer layers =>
    obtain ⟨hlayer, hlayers⟩ := List.forall_mem_cons.mp h
    exact List.forall_mem_cons.mpr ⟨hcs layer hlayer, hlayers⟩

/-- What stands between the markers of a directive has been read to its end, and so has what the
scanner falls back to. -/
theorem whole_of_directive {rest : List Char} (h : Pieces rest) : ∀ {s : Scanner}, s.Whole →
    ∀ {body : List Char} {s' : Scanner}, next { s with rest } = .directive body s' →
      escapes body.reverse = false ∧ s'.Whole := by
  induction h with
  | done =>
    intro s _ body s' hnext
    obtain ⟨outer, layers, _⟩ := s
    cases layers <;> exact absurd hnext (by simp [next, scan])
  | @escape c rest _ ih =>
    intro s hs body s' hnext
    rw [next_escape, advance_withRest] at hnext
    exact ih (hs.advance ['\\', c] fun _ hlayer => escapes_escape hlayer c) hnext
  | @opening rest _ ih =>
    intro s hs body s' hnext
    rw [next_open] at hnext
    have hopened : s.opened.Whole := List.forall_mem_cons.mpr ⟨rfl, hs⟩
    exact ih hopened hnext
  | @closing rest _ ih =>
    intro s hs body s' hnext
    cases hlayers : s.layers with
    | nil =>
      have hclose : ∀ layer, escapes layer = false → escapes ([')'].reverse ++ layer) = false :=
        fun layer _ => escapes_cons (by decide) layer
      rw [next_stray_of_layers hlayers,
        next_stray_of_layers ((layers_advance_eq_nil _ _).mpr hlayers)] at hnext
      exact ih ((hs.advance _ hclose).advance _ hclose) hnext
    | cons layer layers =>
      rw [hlayers, next_close] at hnext
      obtain ⟨rfl, rfl⟩ := Finding.directive.inj hnext
      unfold Whole at hs
      rw [hlayers] at hs
      obtain ⟨hlayer, hrest⟩ := List.forall_mem_cons.mp hs
      exact ⟨by rwa [List.reverse_reverse], hrest⟩
  | @lone c rest hlone _ ih =>
    intro s hs body s' hnext
    by_cases hc : c = '\\'
    · -- a backslash on its own is the last character, and no directive follows
      obtain rfl := hlone.1 hc
      obtain ⟨outer, layers, _⟩ := s
      subst hc
      cases layers <;> exact absurd hnext (by simp [next, scan])
    · rw [next_lone hlone, advance_withRest] at hnext
      exact ih (hs.advance [c] fun layer _ => escapes_cons hc layer) hnext

theorem Resumed.whole {cs : List Char} {s : Scanner} (h : Resumed cs s) : s.Whole := by
  induction h with
  | start => exact List.forall_mem_nil _
  | @replaced s s' body rest _ hnext ih => exact (whole_of_directive (pieces s.rest) ih hnext).2

/-- The scanner reads the text between the markers of a directive to its end. -/
theorem Resumed.readWhole_body {cs body : List Char} {s s' : Scanner} (h : Resumed cs s)
    (hnext : s.next = .directive body s') : ReadWhole body := by
  rw [readWhole_iff, endsInEscape_eq]
  exact (whole_of_directive (pieces s.rest) h.whole hnext).1

end Scanner

/-- The text at the offsets that a scanner of bytes gives is what a scanner of characters finds that
goes through the same texts. -/
theorem ByteScanner.Rewrites.exists_directive {cs text body : List Char} {b b' : ByteScanner}
    {span : Scanner.Span} (h : Rewrites cs b text) (hnext : b.next text = .directive span b')
    (hbody : Checked.body span text = .ok body) :
    ∃ s s', Scanner.Resumed cs s ∧ s.next = .directive body s' := by
  obtain ⟨s, hresumed, rfl, rfl⟩ := h.exists_scanner
  obtain ⟨found, s', hdirective, rfl, rfl⟩ := next_directive_ofScanner hnext
  have hcuts := Scanner.cuts_next s
  rw [hdirective] at hcuts
  obtain rfl : found = body := Except.ok.inj ((Engine.body_eq hcuts).symm.trans hbody)
  exact ⟨s, s', hresumed, hdirective⟩

/-! ## Arguments put together -/

/-- A text that is not cut is one argument. -/
theorem Uncut.arguments_eq {cs : List Char} (h : Uncut cs) : arguments cs = [cs] := by
  have hcut := h.cutOnto_append [] []
  rw [List.append_nil, List.append_nil, cutOnto, List.reverse_reverse] at hcut
  rw [Template.arguments_eq, hcut]

/-- **Arguments are cut at the commas that are not escaped.** Every text is cut into at least one
piece, and the pieces with commas between them are the text. It is cut at a comma just if what stands
before the comma, read from the left, has no backslash that waits for a character. Let the text stand
between the markers of a directive that a scanner finds, whatever has taken the place of those before
it. Then no piece ends in an odd number of backslashes, and whichever of the pieces `QUOTECOMMA` puts
together, the result is a single piece. A scanner of bytes and the offsets that it gives lead to the
same text. -/
theorem arguments_cuts {ρ : Type} [Draws ρ] (body : List Char) :
    (arguments body ≠ [] ∧ [','].intercalate (arguments body) = body ∧
      ∀ before after, body = before ++ ',' :: after →
        (CutAt before after (arguments body) ↔ ReadWhole before)) ∧
    (∀ {cs : List Char} {s s' : Scanner}, Scanner.Resumed cs s → s.next = .directive body s' →
      (∀ piece ∈ arguments body, endsInEscape piece = false) ∧
      ∀ pieces, (∀ piece ∈ pieces, piece ∈ arguments body) →
        ∀ (today : String) (state : State) (r : ρ), ∃ quoted,
          Operation.quoteComma.run today state (pieces.map String.ofList) r = (.ok quoted, r) ∧
          quoted.toList = ['\\', ','].intercalate pieces ∧
          arguments quoted.toList = [quoted.toList]) ∧
    ∀ {cs text : List Char} {b b' : ByteScanner} {span : Scanner.Span},
      ByteScanner.Rewrites cs b text → b.next text = .directive span b' →
      Checked.body span text = .ok body →
        ∃ s s', Scanner.Resumed cs s ∧ s.next = .directive body s' := by
  refine ⟨⟨?_, ?_, ?_⟩, ?_, ByteScanner.Rewrites.exists_directive⟩
  · rw [arguments_eq]
    exact cutOnto_ne_nil [] body
  · rw [arguments_eq]
    exact intercalate_cutOnto [] body
  · rintro before after rfl
    exact cutAt_arguments_iff before after
  · intro cs s s' hresumed hnext
    have hwhole : ReadWhole body := hresumed.readWhole_body hnext
    have huncut : ∀ piece ∈ arguments body, Uncut piece :=
      uncut_of_arguments (List.append_nil _).symm fun _ => hwhole
    refine ⟨fun piece hpiece => (readWhole_iff piece).mp (huncut piece hpiece).readWhole, ?_⟩
    intro pieces hpieces today state r
    have hquoted : (String.intercalate "\\," (pieces.map String.ofList)).toList =
        ['\\', ','].intercalate pieces := by
      simp [String.toList_intercalate]
    have hcomma : Uncut ['\\', ','] := Uncut.done.escape
    refine ⟨_, rfl, hquoted, ?_⟩
    rw [hquoted]
    exact (intercalate_of_append .done Uncut.append hcomma
      fun piece hpiece => huncut piece (hpieces piece hpiece)).arguments_eq

/-- The inner directive is replaced by a text with a comma and an escaped backslash. Reading goes
over the comma in `b\,c`, and of the pieces two are put together. -/
theorem arguments_cuts_rewritten :
    let cs := "((A,b\\,c\\\\,((D)),d))".toList
    let text := "((A,b\\,c\\\\,é,\\\\,d))".toList
    let body := "A,b\\,c\\\\,é,\\\\,d".toList
    let b : ByteScanner := { pos := 11, opens := [0] }
    arguments body = ["A", "b\\,c\\\\", "é", "\\\\", "d"].map String.toList ∧
    ByteScanner.Rewrites cs b text ∧ b.next text = .directive ⟨0, 20⟩ {} ∧
    Checked.body ⟨0, 20⟩ text = .ok body ∧
    CutAt "A".toList "b\\,c\\\\,é,\\\\,d".toList (arguments body) ∧
    (∀ piece ∈ arguments body, endsInEscape piece = false) ∧
    ∃ quoted, Operation.quoteComma.run "" {} ["b\\,c\\\\", "\\\\"] zeroSource =
        (.ok quoted, zeroSource) ∧
      arguments quoted.toList = [quoted.toList] := by
  intro cs text body b
  have hpieces : arguments body = ["A", "b\\,c\\\\", "é", "\\\\", "d"].map String.toList := rfl
  have hinner : ByteScanner.next {} cs = .directive ⟨11, 16⟩ b := rfl
  have hrewrites : ByteScanner.Rewrites cs b text :=
    .replaced 16 "é,\\\\".toList .start hinner (by decide) rfl
  have hnext : b.next text = .directive ⟨0, 20⟩ {} := rfl
  have hbody : Checked.body ⟨0, 20⟩ text = .ok body := rfl
  obtain ⟨⟨-, -, hcuts⟩, hfound, hsame⟩ := @arguments_cuts Stepping _ body
  obtain ⟨s, s', hresumed, hdirective⟩ := hsame hrewrites hnext hbody
  obtain ⟨hends, hquotes⟩ := hfound hresumed hdirective
  have hread : ReadWhole "A".toList := .character (by decide) .done
  have hchosen : ∀ piece ∈ ["b\\,c\\\\", "\\\\"].map String.toList, piece ∈ arguments body := by
    rw [hpieces]
    decide
  obtain ⟨quoted, hrun, -, hsingle⟩ := hquotes _ hchosen "" {} zeroSource
  exact ⟨hpieces, hrewrites, hnext, hbody, (hcuts _ _ rfl).mpr hread, hends, quoted, hrun, hsingle⟩

end Template

end ExamPaper
