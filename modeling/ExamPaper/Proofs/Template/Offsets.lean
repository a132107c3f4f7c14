import ExamPaper.Proofs.Template.CheckedExpansion

/-!
# Offsets into a text that is rewritten

A scanner of bytes keeps offsets into a text: where it is to read on, and where the markers begin
that are still open. Between two of its findings the text is rewritten from the directive on, so the
offsets must make sense in a text that they were not taken from. `Rewrites` is a run of such a
scanner, with any texts put in the place of the directives.

> In every such run all offsets lie between two characters of the text as it is then, those of the
> open markers at a marker each, and no slice that is taken at them fails (`rewrites_inPlace`).

The scanner reads byte by byte, and after a backslash it can stand in the midst of a character. That
need not be followed: a scanner of characters stands at the same place whenever something is found
(`Rewrites.exists_scanner`), and what it has read is cut at the offsets.
-/

namespace ExamPaper

namespace Text

/-! ## Places in a text -/

/-- An offset lies between two characters of a text, or at one of its ends. -/
def IsBoundary (text : List Char) (offset : Nat) : Prop :=
  ∃ before after, text = before ++ after ∧ offset = utf8Size before

/-- A text has another one at an offset. -/
def HasAt (text : List Char) (offset : Nat) (found : List Char) : Prop :=
  ∃ before after, text = before ++ found ++ after ∧ offset = utf8Size before

variable {text found : List Char} {offset : Nat}

/-- What stands in a text begins at a boundary. -/
theorem HasAt.isBoundary (h : HasAt text offset found) : IsBoundary text offset := by
  obtain ⟨before, after, htext, hoffset⟩ := h
  exact ⟨before, found ++ after, by rw [htext, List.append_assoc], hoffset⟩

/-- It ends at one. -/
theorem HasAt.isBoundary_end (h : HasAt text offset found) :
    IsBoundary text (offset + utf8Size found) := by
  obtain ⟨before, after, htext, hoffset⟩ := h
  exact ⟨before ++ found, after, htext, by rw [utf8Size_append, hoffset]⟩

/-- A boundary is not behind the end of the text. -/
theorem IsBoundary.le_utf8Size (h : IsBoundary text offset) : offset ≤ utf8Size text := by
  obtain ⟨before, after, rfl, rfl⟩ := h
  rw [utf8Size_append]
  exact Nat.le_add_right _ _

theorem eq_nil_of_utf8Size {cs : List Char} (h : utf8Size cs = 0) : cs = [] := by
  cases cs with
  | nil => rfl
  | cons c cs =>
    have hpos := c.utf8Size_pos
    rw [utf8Size_cons] at h
    omega

/-- Of two ways to cut a text the one that cuts it earlier leaves more of it. -/
theorem exists_append_of_le {before after before' after' : List Char}
    (h : before ++ after = before' ++ after') (hle : utf8Size before ≤ utf8Size before') :
    ∃ between, before' = before ++ between ∧ after = between ++ after' := by
  rcases List.append_eq_append_iff.mp h with ⟨between, rfl, rfl⟩ | ⟨between, rfl, rfl⟩
  · exact ⟨between, rfl, rfl⟩
  · -- cut later and not further on, so at the same place
    rw [utf8Size_append] at hle
    obtain rfl : between = [] := eq_nil_of_utf8Size (by omega)
    exact ⟨[], (List.append_nil _).symm.trans (by simp), rfl⟩

/-- A text is cut after some bytes in one way only. -/
theorem eq_of_utf8Size_eq {before after before' after' : List Char}
    (h : before ++ after = before' ++ after') (hsize : utf8Size before = utf8Size before') :
    before = before' ∧ after = after' := by
  obtain ⟨between, rfl, rfl⟩ := exists_append_of_le h (Nat.le_of_eq hsize)
  rw [utf8Size_append] at hsize
  obtain rfl : between = [] := eq_nil_of_utf8Size (by omega)
  exact ⟨(List.append_nil _).symm, rfl⟩

/-- A cut is made between two parts of the text. -/
theorem cut?_eq_some {offset : Nat} {text before after : List Char}
    (h : cut? offset text = some (before, after)) :
    text = before ++ after ∧ offset = utf8Size before := by
  fun_induction cut? offset text generalizing before after with
  | case1 cs =>
    obtain ⟨rfl, rfl⟩ := Prod.mk.inj (Option.some.inj h)
    exact ⟨rfl, rfl⟩
  | case2 => exact absurd h (by simp)
  | case3 n c cs hle ih =>
    obtain ⟨⟨upTo, rest⟩, hcut, hparts⟩ := Option.map_eq_some_iff.mp h
    obtain ⟨rfl, rfl⟩ := Prod.mk.inj hparts
    obtain ⟨rfl, hsize⟩ := ih hcut
    refine ⟨rfl, ?_⟩
    rw [utf8Size_cons]
    omega
  | case4 => exact absurd h (by simp)

end Text

namespace Template

namespace Checked

variable {start stop offset : Nat} {text before after : List Char}

theorem cut_ok (h : cut offset text = .ok (before, after)) :
    text = before ++ after ∧ offset = Text.utf8Size before := by
  unfold cut at h
  cases hcut : Text.cut? offset text with
  | none => rw [hcut] at h; exact absurd h (by simp)
  | some parts =>
    rw [hcut] at h
    obtain rfl := Except.ok.inj h
    exact Text.cut?_eq_some hcut

/-- A text that is put between offsets takes the place of what is between them. -/
theorem splice_ok {new text' : List Char} (h : splice start stop new text = .ok text') :
    ∃ before passed after, text = before ++ passed ++ after ∧ start = Text.utf8Size before ∧
      text' = before ++ new ++ after := by
  obtain ⟨_, hslice, h⟩ := exists_of_bind_ok h
  obtain ⟨⟨before, rest⟩, hstart, h⟩ := exists_of_bind_ok h
  obtain ⟨⟨upTo, after⟩, hstop, h⟩ := exists_of_bind_ok h
  obtain ⟨⟨upTo', after'⟩, hstop', hslice⟩ := exists_of_bind_ok hslice
  obtain ⟨⟨before', passed⟩, hstart', -⟩ := exists_of_bind_ok hslice
  obtain ⟨rfl, rfl⟩ := Prod.mk.inj (Except.ok.inj (hstop.symm.trans hstop'))
  -- the text in front of the first offset is that in front of it in the text up to the second
  obtain ⟨hupTo, hsize'⟩ := cut_ok hstart'
  obtain ⟨htext, hsize⟩ := cut_ok hstart
  obtain ⟨htext', -⟩ := cut_ok hstop
  have hparts : before ++ rest = before' ++ (passed ++ after) := by
    rw [← htext, htext', hupTo, List.append_assoc]
  obtain ⟨rfl, -⟩ := Text.eq_of_utf8Size_eq hparts (hsize.symm.trans hsize')
  exact ⟨before, passed, after, by rw [htext', hupTo], hsize, (Except.ok.inj h).symm⟩

/-- A cut at a boundary does not break off. -/
theorem cut_of_isBoundary (h : Text.IsBoundary text offset) :
    ∃ before after, cut offset text = .ok (before, after) := by
  obtain ⟨before, after, htext, hoffset⟩ := h
  exact ⟨before, after, cut_eq htext hoffset⟩

end Checked

/-! ## Runs of a scanner -/

namespace Scanner

/-- A scanner came about from one at the start of a text: every directive that was found has been
replaced, with what follows it, by some text. -/
inductive Resumed (cs : List Char) : Scanner → Prop where
  | start : Resumed cs (ofText cs)
  | replaced {s s' : Scanner} {body : List Char} (rest : List Char) : Resumed cs s →
      s.next = .directive body s' → Resumed cs { s' with rest }

end Scanner

namespace ByteScanner

/-- A text came about from another one, and a scanner of bytes with it, which goes on in the text:
every directive that was found has been replaced, from where it begins to where it ends or to a
later offset, by some text. -/
inductive Rewrites (cs : List Char) : ByteScanner → List Char → Prop where
  | start : Rewrites cs {} cs
  | replaced {s s' : ByteScanner} {text text' : List Char} {span : Scanner.Span} (stop : Nat)
      (new : List Char) : Rewrites cs s text → s.next text = .directive span s' →
      span.stop ≤ stop → Checked.splice span.start stop new text = .ok text' →
      Rewrites cs s' text'

/-- What a scanner of bytes finds in the text of a scanner that stands at the same place. -/
theorem next_directive_ofScanner {s : Scanner} {span : Scanner.Span} {b : ByteScanner}
    (h : (ofScanner s).next s.text = .directive span b) :
    ∃ body s', s.next = .directive body s' ∧ span = s'.span body ∧ b = ofScanner s' := by
  rw [next_ofScanner] at h
  cases hnext : s.next with
  | directive body s' =>
    rw [hnext] at h
    obtain ⟨hspan, hb⟩ := ByteFinding.directive.inj h
    exact ⟨body, s', rfl, hspan.symm, hb.symm⟩
  | finished whole => rw [hnext] at h; exact absurd h ByteFinding.noConfusion
  | unterminated rest => rw [hnext] at h; exact absurd h ByteFinding.noConfusion

/-- A marker that is never closed is told by where the text from it on begins. -/
theorem isBoundary_of_next {s : Scanner} {start : Nat}
    (h : (ofScanner s).next s.text = .unterminated start) : Text.IsBoundary s.text start := by
  have hcuts := Scanner.cuts_next s
  rw [next_ofScanner] at h
  cases hnext : s.next with
  | directive body s' => rw [hnext] at h; exact absurd h ByteFinding.noConfusion
  | finished whole => rw [hnext] at h; exact absurd h ByteFinding.noConfusion
  | unterminated rest =>
    rw [hnext] at h hcuts
    obtain rfl := ByteFinding.unterminated.inj h
    obtain ⟨before, hbefore⟩ := hcuts
    refine ⟨before, rest, hbefore, ?_⟩
    rw [hbefore, Text.utf8Size_append, Nat.add_sub_cancel]

/-- In every run of a scanner of bytes, a scanner of characters that went through the same texts
stands at the same place. -/
theorem Rewrites.exists_scanner {cs text : List Char} {b : ByteScanner} (h : Rewrites cs b text) :
    ∃ s : Scanner, Scanner.Resumed cs s ∧ s.text = text ∧ ofScanner s = b := by
  induction h with
  | start => exact ⟨.ofText cs, .start, rfl, rfl⟩
  | @replaced b b' text text' span stop new _ hnext _ hsplice ih =>
    obtain ⟨s, hresumed, rfl, rfl⟩ := ih
    obtain ⟨body, s', hdirective, rfl, rfl⟩ := next_directive_ofScanner hnext
    have hcuts := Scanner.cuts_next s
    rw [hdirective] at hcuts
    have htext : s.text = s'.readText ++ ('(' :: '(' :: body ++ ')' :: ')' :: s'.rest) :=
      hcuts.trans (List.append_assoc ..)
    -- the text before the directive stays, whatever takes the place of what follows it
    obtain ⟨before, passed, after, hparts, hstart, rfl⟩ := Checked.splice_ok hsplice
    rw [htext, List.append_assoc] at hparts
    obtain ⟨rfl, -⟩ := Text.eq_of_utf8Size_eq hparts hstart
    refine ⟨{ s' with rest := new ++ after }, .replaced _ hresumed hdirective, ?_, rfl⟩
    exact (List.append_assoc ..).symm

/-! ## Where a scanner stands -/

/-- A scanner of bytes stands between two characters of a text. Its open markers begin at markers of
the text, each behind the one before and all of them before it. -/
structure InPlace (text : List Char) (b : ByteScanner) : Prop where
  pos : Text.IsBoundary text b.pos
  marker : ∀ offset ∈ b.opens, Text.HasAt text offset ['(', '(']
  before_pos : ∀ offset ∈ b.opens, offset + 2 ≤ b.pos
  /-- The innermost marker comes first. -/
  apart : b.opens.Pairwise fun inner outer => outer + 2 ≤ inner

/-- The end of what has been read is a boundary, and the markers kept open stand in the text. -/
theorem inPlace_layers (outer : List Char) (layers : List (List Char)) :
    ∀ rest : List Char, InPlace (outer.reverse ++ Scanner.openText layers ++ rest)
      ⟨Text.utf8Size (outer.reverse ++ Scanner.openText layers),
        Scanner.openPositions outer layers⟩ := by
  induction layers with
  | nil =>
    intro rest
    exact ⟨⟨_, rest, rfl, rfl⟩, List.forall_mem_nil _, List.forall_mem_nil _, .nil⟩
  | cons layer layers ih =>
    intro rest
    have htext : outer.reverse ++ Scanner.openText (layer :: layers) ++ rest =
        outer.reverse ++ Scanner.openText layers ++ ('(' :: '(' :: layer.reverse ++ rest) := by
      simp [Scanner.openText]
    have hpos : Text.utf8Size (outer.reverse ++ Scanner.openText layers) + 2 ≤
        Text.utf8Size (outer.reverse ++ Scanner.openText (layer :: layers)) := by
      obtain ⟨hopen, -⟩ := Engine.utf8Size_marks
      have hlayer : Scanner.openText (layer :: layers) =
          Scanner.openText layers ++ (['(', '('] ++ layer.reverse) := rfl
      rw [hlayer, ← List.append_assoc, Text.utf8Size_append _ (_ ++ _),
        Text.utf8Size_append ['(', '('], hopen]
      omega
    have hinside := ih ('(' :: '(' :: layer.reverse ++ rest)
    rw [← htext] at hinside
    -- the marker of this layer begins where the scanner stood that had not opened it
    refine ⟨⟨_, rest, rfl, rfl⟩, List.forall_mem_cons.mpr ⟨?_, hinside.marker⟩,
      List.forall_mem_cons.mpr ⟨hpos, fun offset hoffset => ?_⟩,
      hinside.apart.cons hinside.before_pos⟩
    · exact ⟨_, layer.reverse ++ rest, by rw [htext]; simp, rfl⟩
    · exact Nat.le_trans (hinside.before_pos offset hoffset)
        (Nat.le_trans (Nat.le_add_right _ 2) hpos)

/-- A scanner of bytes stands in the text of a scanner that stands at the same place. -/
theorem inPlace_ofScanner (s : Scanner) : InPlace s.text (ofScanner s) :=
  inPlace_layers s.outer s.layers s.rest

end ByteScanner

/-! ## Where a directive stands -/

namespace Scanner

/-- The offsets of a directive lie in a text, and those inside its markers too, all of them between
two characters. -/
structure Span.InPlace (text : List Char) (span : Span) : Prop where
  room : span.start + 4 ≤ span.stop
  fits : span.stop ≤ Text.utf8Size text
  start : Text.IsBoundary text span.start
  inside_start : Text.IsBoundary text (span.start + 2)
  inside_stop : Text.IsBoundary text (span.stop - 2)
  stop : Text.IsBoundary text span.stop

/-- No slice of a text that is taken for the sake of a directive fails: what is before it, between its
markers and after it, what is left of its line, and what is replaced together with it. -/
structure Span.Sliceable (text : List Char) (span : Span) : Prop where
  before : ∃ before rest, Checked.cut span.start text = .ok (before, rest)
  after : ∃ upTo after, Checked.cut span.stop text = .ok (upTo, after)
  body : ∃ body, Checked.body span text = .ok body
  lineEnd : ∃ stop, Checked.lineEnd span.stop text = .ok stop ∧ span.stop ≤ stop ∧
    Text.IsBoundary text stop
  splice : ∀ stop new, span.stop ≤ stop → Text.IsBoundary text stop →
    ∃ text', Checked.splice span.start stop new text = .ok text'

variable {s : Scanner} {body text : List Char}

/-- The span of a directive ends behind its closing marker. -/
theorem size_span (s : Scanner) (body : List Char) :
    (s.span body).stop = Text.utf8Size (s.readText ++ ['(', '('] ++ body ++ [')', ')']) := by
  obtain ⟨hopen, hclose⟩ := Engine.utf8Size_marks
  simp only [Text.utf8Size_append]
  unfold span position
  dsimp only
  omega

section

variable (htext : text = s.readText ++ '(' :: '(' :: body ++ ')' :: ')' :: s.rest)

include htext

/-- A directive begins and ends with its markers. -/
theorem hasAt_markers : Text.HasAt text (s.span body).start ['(', '('] ∧
    Text.HasAt text ((s.span body).stop - 2) [')', ')'] := by
  obtain ⟨-, hclose⟩ := Engine.utf8Size_marks
  refine ⟨⟨s.readText, body ++ ')' :: ')' :: s.rest, by simp [htext], rfl⟩,
    ⟨s.readText ++ ['(', '('] ++ body, s.rest, by simp [htext], ?_⟩⟩
  rw [size_span, Text.utf8Size_append _ [')', ')'], hclose, Nat.add_sub_cancel]

/-- The markers of a directive stand in the text at the two ends of its span. -/
theorem span_inPlace : (s.span body).InPlace text := by
  obtain ⟨hopen, hclose⟩ := Engine.utf8Size_marks
  obtain ⟨hopening, hclosing⟩ := hasAt_markers htext
  have hroom : (s.span body).start + 4 ≤ (s.span body).stop :=
    Nat.add_le_add_right (Nat.le_add_right ..) 4
  have hstop : Text.IsBoundary text (s.span body).stop := by
    have hend := hclosing.isBoundary_end
    rwa [hclose, Nat.sub_add_cancel (by omega)] at hend
  exact ⟨hroom, hstop.le_utf8Size, hopening.isBoundary, hopen ▸ hopening.isBoundary_end,
    hclosing.isBoundary, hstop⟩

/-- The text can be cut at the span of a directive. -/
theorem span_sliceable : (s.span body).Sliceable text where
  before := Checked.cut_of_isBoundary (span_inPlace htext).start
  after := Checked.cut_of_isBoundary (span_inPlace htext).stop
  body := ⟨body, Engine.body_eq htext⟩
  lineEnd := by
    obtain ⟨line, hline, hstop⟩ := Engine.exists_lineEnd htext
    refine ⟨_, hstop, Nat.le_add_right .., ?_⟩
    rw [size_span, ← Text.utf8Size_append]
    refine ⟨_, afterLine s.rest, ?_, rfl⟩
    rw [htext, List.append_assoc _ line, ← hline]
    simp
  splice := by
    rintro stop new hle ⟨before, after, hparts, rfl⟩
    -- what is replaced is the directive and a part of what follows it
    have hdirective : text = (s.readText ++ ['(', '('] ++ body ++ [')', ')']) ++ s.rest := by
      simp [htext]
    rw [size_span] at hle
    obtain ⟨passed, rfl, hrest⟩ := Text.exists_append_of_le (hdirective.symm.trans hparts) hle
    have hsplice := Engine.splice_eq htext passed hrest new
    rw [size_span, ← Text.utf8Size_append] at hsplice
    exact ⟨_, hsplice⟩

end

end Scanner

/-! ## All runs -/

namespace ByteScanner

/-- **Offsets stay in place.** Let a text be rewritten while a scanner of bytes goes through it, with
any texts in the place of the directives and of what follows them. The scanner then stands where a
scanner of characters stands that goes through the same texts, and finds the same. It stands between
two characters, and the markers that it holds open are markers of the text, at least two bytes apart.
The offsets of a directive that it finds leave room for two markers, lie in the text, and do not cut
a character, nor do they with the markers taken off; the markers left open begin before the
directive. So every slice at such offsets can be taken, and so can the text from a marker on that is
never closed. -/
theorem rewrites_inPlace {cs text : List Char} {b : ByteScanner} (h : Rewrites cs b text) :
    (∃ s : Scanner, Scanner.Resumed cs s ∧ s.text = text ∧ ofScanner s = b ∧
      b.next text = s.next.inBytes text) ∧
    b.InPlace text ∧
    (∀ span b', b.next text = .directive span b' →
      span.InPlace text ∧ b'.pos = span.start ∧ b'.InPlace text ∧ span.Sliceable text) ∧
    ∀ start, b.next text = .unterminated start →
      ∃ before rest, Checked.cut start text = .ok (before, rest) := by
  obtain ⟨s, hresumed, rfl, rfl⟩ := h.exists_scanner
  refine ⟨⟨s, hresumed, rfl, rfl, next_ofScanner s⟩, inPlace_ofScanner s, ?_, ?_⟩
  · intro span b' hnext
    obtain ⟨body, s', hdirective, rfl, rfl⟩ := next_directive_ofScanner hnext
    have hcuts := Scanner.cuts_next s
    rw [hdirective] at hcuts
    have htext : s.text = s'.readText ++ '(' :: '(' :: body ++ ')' :: ')' :: s'.rest := hcuts
    refine ⟨Scanner.span_inPlace htext, rfl, ?_, Scanner.span_sliceable htext⟩
    rw [htext, List.append_assoc]
    exact inPlace_layers s'.outer s'.layers _
  · intro start hnext
    exact Checked.cut_of_isBoundary (isBoundary_of_next hnext)

/-- The inner directive is replaced with the rest of its line, and then with the rest of the text. -/
theorem rewrites_inPlace_inner :
    let cs := "\\é((A,((ID,ß)) ü\nz))".toList
    let closed := "\\é((A,éz))".toList
    let openEnded := "\\é((A,é".toList
    let b : ByteScanner := { pos := 7, opens := [3] }
    (Rewrites cs b closed ∧ b.InPlace closed ∧
      b.next closed = .directive ⟨3, 12⟩ { pos := 3 } ∧
      Scanner.Span.InPlace closed ⟨3, 12⟩ ∧ Scanner.Span.Sliceable closed ⟨3, 12⟩) ∧
    (Rewrites cs b openEnded ∧ b.next openEnded = .unterminated 3 ∧
      ∃ before rest, Checked.cut 3 openEnded = .ok (before, rest)) := by
  intro cs closed openEnded b
  have hnext : ByteScanner.next {} cs = .directive ⟨7, 16⟩ b := rfl
  have hclosed : Rewrites cs b closed :=
    .replaced 20 ['é'] .start hnext (by decide) rfl
  have hopenEnded : Rewrites cs b openEnded :=
    .replaced 23 ['é'] .start hnext (by decide) rfl
  have hfound : b.next closed = .directive ⟨3, 12⟩ { pos := 3 } := rfl
  have hlost : b.next openEnded = .unterminated 3 := rfl
  obtain ⟨-, hplace, hdirective, -⟩ := rewrites_inPlace hclosed
  obtain ⟨-, -, -, hcut⟩ := rewrites_inPlace hopenEnded
  obtain ⟨hspan, -, -, hslices⟩ := hdirective _ _ hfound
  exact ⟨⟨hclosed, hplace, hfound, hspan, hslices⟩, hopenEnded, hlost, hcut _ hlost⟩

end ByteScanner

end Template

end ExamPaper
