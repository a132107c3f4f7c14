import ExamPaper.Proofs.Template.Bytes
import ExamPaper.Proofs.Template.Locating
import ExamPaper.Proofs.Template.Restart
import Mathlib.Data.List.Basic

/-!
# Going on after a replacement

A scanner that has found a directive goes on where the directive began, with whatever stands there
now. `Rewritten` says that a scanner came about in this way, with any texts for replacements and with
no seam before the last one.

> Such a scanner finds what a scanner finds that starts over, just if its last replacement is no seam
> (`next_rewritten`). At a seam, the one that starts over ends a directive between the two closing
> parentheses, and the other does not.

No invariant of the scanner is needed for this. As long as there was no seam, what it has found is
what a scanner at the start of the text finds, so it stands as that one would: past the pieces before
the directive (`Scanner.past`). What is read anew can join the last of these pieces only.
-/

namespace ExamPaper

namespace Template

namespace Piece

/-- A backslash by itself is the last piece of a text. -/
theorem ne_backslash_of_read : ∀ {before : List Piece} {cs : List Char} {after : List Piece},
    read cs = before ++ after → after ≠ [] → ∀ c, single c ∈ before → c ≠ '\\'
  | [], _, _, _, _, c, hc => absurd hc List.not_mem_nil
  | p :: before, cs, after, h, hafter, c, hc => by
    obtain ⟨rest, rfl, hstays, hrest⟩ := exists_of_read_eq_cons h
    rcases List.mem_cons.mp hc with rfl | hc
    · rintro rfl
      obtain rfl : rest = [] := hstays.1 rfl
      exact hafter (List.append_eq_nil_iff.mp hrest.symm).2
    · exact ne_backslash_of_read hrest hafter c hc

section

variable {cs : List Char} {ps : List Piece} {p : Piece} {inner after : List Piece}
  (h : Cut (read cs) (ps ++ [p]) inner after)

include h

/-- The pieces of a cut text, with the last one before the directive apart. -/
theorem Cut.read_concat : read cs = ps ++ (p :: opening :: (inner ++ closing :: after)) := by
  rw [h.eq, List.append_assoc]
  rfl

/-- All pieces before a directive but the last are read whatever is made of the last one. -/
theorem Cut.read_ahead {rest : List Char} (hrest : rest.head? = p.text.head?) :
    read (textOf ps ++ rest) = ps ++ read rest := by
  obtain ⟨rest', -, hlast, hothers⟩ := read_append h.read_concat
  obtain ⟨next, rfl, -, -⟩ := exists_of_read_eq_cons hlast
  refine hothers rest fun d hd => ?_
  rw [List.head?_append, ← hrest, hd]
  rfl

/-- The last piece before a directive is read as it was, unless it is a closing parenthesis that
another one follows. -/
theorem Cut.read_last {rest : List Char} (hrest : p = single ')' → rest.head? ≠ some ')') :
    read (p.text ++ rest) = p :: read rest := by
  refine read_text_append ?_
  obtain ⟨rest', -, hlast, -⟩ := read_append h.read_concat
  obtain ⟨next, -, hstays, hnext⟩ := exists_of_read_eq_cons hlast
  obtain ⟨next', rfl, -, -⟩ := exists_of_read_eq_cons hnext
  cases p with
  | single c =>
    -- the marker of the directive followed, so this is neither a backslash nor an opening parenthesis
    refine ⟨fun hc => absurd (hstays.1 hc) (by simp [text]),
      fun hc => absurd rfl (hstays.2.1 hc), fun hc => hrest (by rw [hc])⟩
  | _ => trivial

/-- All pieces before a directive are read as they were, unless the last one joins with what
follows. -/
theorem Cut.read_apart {rest : List Char} (hrest : p = single ')' → rest.head? ≠ some ')') :
    read (textOf (ps ++ [p]) ++ rest) = (ps ++ [p]) ++ read rest := by
  have hhead : (p.text ++ rest).head? = p.text.head? := by cases p <;> rfl
  rw [textOf_append, List.append_assoc, List.append_assoc]
  show read (textOf ps ++ (p.text ++ [] ++ rest)) = _
  rw [List.append_nil, h.read_ahead hhead, h.read_last hrest]
  rfl

end

/-- A closing parenthesis that another one follows makes a marker with it. -/
theorem Cut.read_joined {cs : List Char} {ps inner after : List Piece}
    (h : Cut (read cs) (ps ++ [single ')']) inner after) (rest : List Char) :
    read (textOf (ps ++ [single ')']) ++ ')' :: rest) = ps ++ closing :: read rest := by
  rw [textOf_append, List.append_assoc]
  have hhead : (text closing ++ rest).head? = (text (single ')')).head? := rfl
  exact (h.read_ahead hhead).trans (congrArg (ps ++ ·) (read_text_append trivial))

end Piece

namespace Scanner

open Piece

/-! ## What stands before a replacement -/

theorem escapes_top_past (rest : List Char) {ps : List Piece} :
    (∀ c, .single c ∈ ps → c ≠ '\\') → escapes (past ps rest).top = false := by
  induction ps using List.reverseRecOn with
  | nil => exact fun _ => rfl
  | append_singleton ps p ih =>
    intro h
    have hread := ih fun c hc => h c (List.mem_append_left _ hc)
    rw [past_concat]
    cases p with
    | opening => rfl
    | escape c =>
      rw [pass_of_ne (by simp), top_advance]
      exact escapes_escape hread c
    | closing =>
      rw [pass_of_ne (by simp), top_advance]
      exact escapes_cons (by decide) _
    | single c =>
      rw [pass_of_ne (by simp), top_advance]
      exact escapes_cons (h c (List.mem_append_right _ List.mem_cons_self)) _

/-- Where a marker is open, the text read last ends in a closing parenthesis just if this is the last
piece. -/
theorem endsIn_past {ps : List Piece} {p : Piece} (hlone : ∀ c, .single c ∈ ps → c ≠ '\\')
    (hclosing : .closing ∉ fromOpening (ps ++ [p])) {rest : List Char}
    (hopen : .opening ∈ ps ++ [p]) :
    (past (ps ++ [p]) rest).endsIn ')' = true ↔ p = .single ')' := by
  have hread := escapes_top_past rest hlone
  rw [past_concat]
  cases p with
  | opening => exact iff_of_false (by simp [pass, opened, endsIn, top]) (by simp)
  | escape c =>
    -- the backslash before the character escapes it
    have hescaped : escapes ('\\' :: (past ps rest).top) = true := by rw [escapes, hread]; rfl
    rw [pass_of_ne (by simp)]
    unfold endsIn
    rw [top_advance]
    show (c == ')' && !escapes ('\\' :: (past ps rest).top)) = true ↔ _
    simp [hescaped]
  | closing =>
    have hps : Piece.opening ∈ ps := by simpa using hopen
    rw [fromOpening_append_of_mem hps] at hclosing
    exact absurd (List.mem_append_right _ List.mem_cons_self) hclosing
  | single c =>
    rw [pass_of_ne (by simp)]
    show (advance [c] _).endsIn ')' = true ↔ _
    rw [endsIn_advance, hread]
    simp

/-- A replacement of a directive is a seam just if a marker is open, the last piece before it is a
closing parenthesis, and the text begins with another one. -/
theorem isSeam_past {cs : List Char} {before inner after : List Piece}
    (h : Cut (Piece.read cs) before inner after) {rest : List Char} :
    (past before rest).isSeam = true ↔ .opening ∈ before ∧
      ∃ ps rest', before = ps ++ [.single ')'] ∧ rest = ')' :: rest' := by
  have hopen : (!(past before rest).layers.isEmpty) = true ↔ Piece.opening ∈ before := by
    rw [Bool.not_eq_true', ← Bool.not_eq_true, List.isEmpty_iff, layers_past, not_not]
  have hhead : ((past before rest).rest.head? == some ')') = true ↔ ∃ rest', rest = ')' :: rest' := by
    show (rest.head? == some ')') = true ↔ _
    rw [beq_iff_eq, List.head?_eq_some_iff]
  unfold isSeam
  rw [Bool.and_eq_true, Bool.and_eq_true, hopen, hhead]
  constructor
  · rintro ⟨⟨hmem, hends⟩, rest', hrest⟩
    refine ⟨hmem, ?_⟩
    obtain rfl | ⟨ps, p, rfl⟩ := List.eq_nil_or_concat' before
    · exact absurd hmem List.not_mem_nil
    · have hlone := ne_backslash_of_read h.read_concat (by simp)
      exact ⟨ps, rest', by rw [(endsIn_past hlone h.first hmem).mp hends], hrest⟩
  · rintro ⟨hmem, ps, rest', rfl, hrest⟩
    have hlone := ne_backslash_of_read h.read_concat (by simp)
    exact ⟨⟨hmem, (endsIn_past hlone h.first hmem).mpr rfl⟩, rest', hrest⟩

/-! ## Going on and starting over -/

/-- Passing pieces does not change the text. -/
theorem text_past (ps : List Piece) (rest : List Char) :
    (past ps rest).text = textOf ps ++ rest :=
  congrArg (· ++ rest) (readText_past ps rest)

section

variable {cs : List Char} {before inner after : List Piece}
  (h : Cut (Piece.read cs) before inner after) {rest : List Char}

include h

/-- Where there is no seam, the text is read from the start as it is read from the replacement on. -/
theorem next_past_of_not_isSeam (hseam : (past before rest).isSeam = false) :
    (past before rest).next = (ofText (past before rest).text).next := by
  rw [text_past]
  by_cases hjoins : ∃ ps rest', before = ps ++ [.single ')'] ∧ rest = ')' :: rest'
  · -- two closing parentheses, but no marker is open that they could close
    have hnone : Piece.opening ∉ before := fun hmem =>
      absurd ((isSeam_past h).mpr ⟨hmem, hjoins⟩) (by simp [hseam])
    obtain ⟨ps, rest', rfl, rfl⟩ := hjoins
    have hps : Piece.opening ∉ ps := fun hmem => hnone (List.mem_append_left _ hmem)
    have hclosing : Piece.closing ∉ fromOpening ps := by
      rw [fromOpening_of_notMem hps]
      exact List.not_mem_nil
    have hlayers : (past ps (')' :: ')' :: rest')).layers = [] := (layers_past _ _).mpr hps
    rw [next_ofText (h.read_joined rest') hclosing, textOf_cons, textOf_read]
    show _ = next { past ps (')' :: ')' :: rest') with rest := ')' :: ')' :: rest' }
    rw [next_stray_of_layers hlayers, ← advance_withRest, past_concat]
    rfl
  · obtain rfl | ⟨ps, p, rfl⟩ := List.eq_nil_or_concat' before
    · rfl
    · have hapart : p = .single ')' → rest.head? ≠ some ')' := by
        rintro rfl hhead
        obtain ⟨rest', rfl⟩ := List.head?_eq_some_iff.mp hhead
        exact hjoins ⟨ps, rest', rfl, rfl⟩
      rw [next_ofText (h.read_apart hapart) h.first, textOf_read]

/-- At a seam, starting over ends a directive between the two closing parentheses. -/
theorem next_ofText_of_isSeam (hseam : (past before rest).isSeam = true) :
    ∃ body s, (ofText (past before rest).text).next = .directive body s ∧
      rest = ')' :: s.rest := by
  obtain ⟨hmem, ps, rest', rfl, rfl⟩ := (isSeam_past h).mp hseam
  have hps : Piece.opening ∈ ps := by simpa using hmem
  have hclosing : Piece.closing ∉ fromOpening ps := by
    have hfirst := h.first
    rw [fromOpening_append_of_mem hps] at hfirst
    exact fun hmem => hfirst (List.mem_append_left _ hmem)
  have hlayers : (past ps (')' :: ')' :: rest')).layers ≠ [] :=
    mt (layers_past _ _).mp (not_not_intro hps)
  obtain ⟨layer, layers, hlayer⟩ := List.exists_cons_of_ne_nil hlayers
  rw [text_past, next_ofText (h.read_joined rest') hclosing, textOf_cons, textOf_read]
  refine ⟨layer.reverse, ⟨(past ps []).outer, layers, rest'⟩, ?_, rfl⟩
  show next (past ps (')' :: ')' :: rest')) = _
  unfold next
  rw [hlayer]
  rfl

end

/-! ## Where a directive ends -/

/-- The text behind a directive is what is left of the text behind its closing marker. -/
theorem exists_append_of_directive {rest : List Char} (h : Pieces rest) :
    ∀ {s : Scanner} {body : List Char} {s' : Scanner}, next { s with rest } = .directive body s' →
      ∃ passed, rest = passed ++ ')' :: ')' :: s'.rest := by
  induction h with
  | done =>
    intro s body s' hnext
    obtain ⟨outer, layers, _⟩ := s
    cases layers <;> exact absurd hnext (by simp [next, scan])
  | @escape c rest _ ih =>
    intro s body s' hnext
    rw [next_escape, advance_withRest] at hnext
    obtain ⟨passed, rfl⟩ := ih hnext
    exact ⟨'\\' :: c :: passed, rfl⟩
  | @opening rest _ ih =>
    intro s body s' hnext
    rw [next_open] at hnext
    obtain ⟨passed, rfl⟩ := ih (s := s.opened) hnext
    exact ⟨'(' :: '(' :: passed, rfl⟩
  | @closing rest _ ih =>
    intro s body s' hnext
    cases hlayers : s.layers with
    | nil =>
      have hlayers' : (s.advance [')']).layers = [] := (layers_advance_eq_nil _ _).mpr hlayers
      rw [next_stray_of_layers hlayers, next_stray_of_layers hlayers'] at hnext
      obtain ⟨passed, rfl⟩ := ih hnext
      exact ⟨')' :: ')' :: passed, rfl⟩
    | cons layer layers =>
      rw [hlayers, next_close] at hnext
      obtain ⟨-, rfl⟩ := Finding.directive.inj hnext
      exact ⟨[], rfl⟩
  | @lone c rest hlone _ ih =>
    intro s body s' hnext
    rw [next_lone hlone, advance_withRest] at hnext
    obtain ⟨passed, rfl⟩ := ih hnext
    exact ⟨c :: passed, rfl⟩

/-- A directive ends where what is left of the text begins. -/
theorem stop_of_directive {s s' : Scanner} {body : List Char} (h : s.next = .directive body s') :
    (s'.span body).stop + Text.utf8Size s'.rest = Text.utf8Size s.text := by
  have hcuts := cuts_next s
  rw [h] at hcuts
  have htext : s.text = s'.readText ++ '(' :: '(' :: body ++ ')' :: ')' :: s'.rest := hcuts
  have hparen : ('('.utf8Size = 1) ∧ (')'.utf8Size = 1) := ⟨rfl, rfl⟩
  rw [htext]
  simp only [Text.utf8Size_append, Text.utf8Size_cons, hparen]
  show s'.position + Text.utf8Size body + 4 + Text.utf8Size s'.rest = _
  unfold position
  omega

/-- The two parentheses that close a directive are left to read before it is found. -/
theorem lt_stop_of_directive {s s' : Scanner} {body : List Char}
    (h : s.next = .directive body s') : s.position + 1 < (s'.span body).stop := by
  have hsize : Text.utf8Size s.text = s.position + Text.utf8Size s.rest := Text.utf8Size_append _ _
  have hstop := stop_of_directive h
  obtain ⟨passed, hpassed⟩ := exists_append_of_directive (pieces s.rest) h
  have hleft : Text.utf8Size s.rest =
      Text.utf8Size passed + (1 + (1 + Text.utf8Size s'.rest)) := by
    rw [hpassed, Text.utf8Size_append, Text.utf8Size_cons, Text.utf8Size_cons]
    rfl
  omega

/-- A directive that ends with the next character of another scanner of the text ends one byte
further than that one has read. -/
theorem stop_of_rest {s s' : Scanner} {body : List Char}
    (h : (ofText s.text).next = .directive body s') (hrest : s.rest = ')' :: s'.rest) :
    (s'.span body).stop = s.position + 1 := by
  have hsize : Text.utf8Size s.text = s.position + Text.utf8Size s.rest := Text.utf8Size_append _ _
  have hstop : (s'.span body).stop + Text.utf8Size s'.rest = Text.utf8Size s.text :=
    @stop_of_directive (ofText s.text) s' body h
  have hleft : Text.utf8Size s.rest = 1 + Text.utf8Size s'.rest := by
    rw [hrest, Text.utf8Size_cons]
    rfl
  omega

/-- Where one finding is a directive and no directive of another ends there, the two differ in
bytes. -/
theorem inBytes_ne_of_stop_ne {found : Finding} {body : List Char} {s : Scanner}
    (h : ∀ other s', found = .directive other s' → (s'.span other).stop ≠ (s.span body).stop)
    (text : List Char) : found.inBytes text ≠ (Finding.directive body s).inBytes text := by
  cases found with
  | directive other s' =>
    intro hsame
    have hspan := (ByteFinding.directive.inj hsame).1
    exact h other s' rfl (congrArg Span.stop hspan)
  | finished _ => exact ByteFinding.noConfusion
  | unterminated _ => exact ByteFinding.noConfusion

/-! ## Any number of replacements -/

/-- A scanner came about from one at the start of a text. Every directive that was found has been
replaced, with what follows it, by some text, and no replacement before the last one is a seam. -/
inductive Rewritten (cs : List Char) : Scanner → Prop where
  | start : Rewritten cs (ofText cs)
  | replaced {s s' : Scanner} {body : List Char} (rest : List Char) : Rewritten cs s →
      s.isSeam = false → s.next = .directive body s' → Rewritten cs { s' with rest }

/-- A scanner at the start of a text finds what its pieces show. -/
theorem exists_cut_of_next {cs body : List Char} {s : Scanner}
    (h : (ofText cs).next = .directive body s) :
    ∃ before inner after, Cut (Piece.read cs) before inner after ∧
      s = past before (textOf after) := by
  by_cases hclosing : .closing ∈ fromOpening (Piece.read cs)
  · obtain ⟨before, inner, after, hcut⟩ := exists_cut hclosing
    rw [next_ofText_directive hcut] at h
    exact ⟨before, inner, after, hcut, (Finding.directive.inj h).2.symm⟩
  · by_cases hopening : .opening ∈ Piece.read cs
    · obtain ⟨rest, hnext⟩ := next_ofText_unterminated hopening hclosing
      exact absurd (hnext.symm.trans h) (by simp)
    · exact absurd ((next_ofText_finished hopening).symm.trans h) (by simp)

/-- A scanner is at the start of a text, or past the pieces before a directive of some text. -/
inductive Stands : Scanner → Prop where
  | start (cs : List Char) : Stands (ofText cs)
  | past {cs : List Char} {before inner after : List Piece} (rest : List Char) :
      Cut (Piece.read cs) before inner after → Stands (past before rest)

/-- A scanner that stands where pieces have been passed finds what a fresh one finds, but at a seam.
-/
theorem Stands.next_eq {s : Scanner} (h : Stands s) (hseam : s.isSeam = false) :
    s.next = (ofText s.text).next := by
  cases h with
  | start cs => rfl
  | past rest hcut => exact next_past_of_not_isSeam hcut hseam

/-- At a seam a fresh scanner finds a directive that ends right behind it. -/
theorem Stands.exists_directive {s : Scanner} (h : Stands s) (hseam : s.isSeam = true) :
    ∃ body s', (ofText s.text).next = .directive body s' ∧ s.rest = ')' :: s'.rest := by
  cases h with
  | start cs => exact absurd hseam (by simp [isSeam, ofText])
  | past rest hcut => exact next_ofText_of_isSeam hcut hseam

/-- What a scanner finds before the first seam, one at the start of the text finds too, so it stands
past what precedes a directive of that text. -/
theorem Rewritten.stands {cs : List Char} {s : Scanner} (h : Rewritten cs s) : Stands s := by
  induction h with
  | start => exact .start cs
  | @replaced s s' body rest _ hseam hnext ih =>
    obtain ⟨before, inner, after, hcut, rfl⟩ :=
      exists_cut_of_next ((ih.next_eq hseam).symm.trans hnext)
    exact .past rest hcut

/-- **Going on after replacements.** A scanner that goes on after any number of replacements, none of
them a seam, finds what a scanner at the start of the text finds: the same directive at the same
bytes, the same end of the text, or the same marker without an end. At the first seam, the scanner
at the start ends a directive with the closing parenthesis after the seam; the one that goes on ends
none before the next one, so the two find something different, also in bytes. -/
theorem next_rewritten {cs : List Char} {s : Scanner} (h : Rewritten cs s) :
    (s.isSeam = false → s.next = (ofText s.text).next ∧
      (ByteScanner.ofScanner s).next s.text = ByteScanner.next {} s.text) ∧
    (s.isSeam = true →
      (∃ body s', (ofText s.text).next = .directive body s' ∧
        (s'.span body).stop = s.position + 1) ∧
      (∀ body s', s.next = .directive body s' → s.position + 1 < (s'.span body).stop) ∧
      s.next ≠ (ofText s.text).next ∧
      (ByteScanner.ofScanner s).next s.text ≠ ByteScanner.next {} s.text) := by
  have hfresh : ByteScanner.next {} s.text = (ofText s.text).next.inBytes s.text :=
    ByteScanner.next_ofScanner (ofText s.text)
  rw [ByteScanner.next_ofScanner, hfresh]
  constructor
  · intro hseam
    have hsame := h.stands.next_eq hseam
    exact ⟨hsame, congrArg (Finding.inBytes s.text) hsame⟩
  · intro hseam
    obtain ⟨body, s', hnext, hrest⟩ := h.stands.exists_directive hseam
    have hstop := stop_of_rest hnext hrest
    have hlater : ∀ body s', s.next = .directive body s' → s.position + 1 < (s'.span body).stop :=
      fun _ _ => lt_stop_of_directive
    have hbytes : s.next.inBytes s.text ≠ (ofText s.text).next.inBytes s.text := by
      rw [hnext]
      refine inBytes_ne_of_stop_ne (fun other s'' hfound => ?_) s.text
      rw [hstop]
      exact Nat.ne_of_gt (hlater other s'' hfound)
    exact ⟨⟨body, s', hnext, hstop⟩, hlater, fun hsame => hbytes (congrArg _ hsame), hbytes⟩

/-- The directive inside is replaced by `b`, and then the one around it. If that leaves `c`, it does
not matter where the next one is looked for; if it leaves nothing, the closing parentheses before and
after it meet. -/
theorem next_rewritten_inner :
    let text := "((ID,a)((SAVE,((x)),ID,y)))".toList
    let apart : Scanner := ⟨[], ["ID,a)".toList.reverse], "c)".toList⟩
    let seam : Scanner := ⟨[], ["ID,a)".toList.reverse], ")".toList⟩
    (Rewritten text apart ∧ apart.isSeam = false ∧ apart.next = (ofText apart.text).next) ∧
    (Rewritten text seam ∧ seam.isSeam = true ∧ seam.next ≠ (ofText seam.text).next ∧
      seam.next = .unterminated "((ID,a))".toList ∧
      (ofText seam.text).next = .directive "ID,a".toList (ofText [])) := by
  intro text apart seam
  let inner : Scanner := ⟨[], ["SAVE,".toList.reverse, "ID,a)".toList.reverse], "b,ID,y)))".toList⟩
  have hinner : Rewritten text inner :=
    @Rewritten.replaced _ _ { inner with rest := ",ID,y)))".toList } _ _ .start rfl rfl
  have hapart : Rewritten text apart :=
    @Rewritten.replaced _ _ { apart with rest := ")".toList } _ _ hinner rfl rfl
  have hseam : Rewritten text seam := @Rewritten.replaced _ _ seam _ _ hinner rfl rfl
  exact ⟨⟨hapart, rfl, ((next_rewritten hapart).1 rfl).1⟩,
    hseam, rfl, ((next_rewritten hseam).2 rfl).2.2.1, rfl, rfl⟩

end Scanner

end Template

end ExamPaper
