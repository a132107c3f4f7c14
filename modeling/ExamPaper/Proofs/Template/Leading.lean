import ExamPaper.Proofs.Template.Reference

/-!
# Plain text in front

Plain text in front of a text is read before everything else, and nothing that is expanded later
reaches back to it: it stays below all that is read after it (`Scanner.above`).

> So a text with plain text in front of it is expanded to the plain text and what the text itself is
> expanded to. It fails just where the text itself does, and leaves the same behind
> (`Engine.expandFrom_plain_append`). The same holds of a name with a plain value, which takes one
> step (`Engine.expandFrom_plain_name`).
-/

namespace ExamPaper

namespace Template

/-- What is unescaped later does not change what is done. -/
theorem unescapeOnto_append_done (done base cs : List Char) :
    unescapeOnto (done ++ base) cs = base.reverse ++ unescapeOnto done cs := by
  fun_induction unescapeOnto done cs with
  | case1 done => exact List.reverse_append
  | case2 done c cs hescapable ih => rwa [unescapeOnto, if_pos hescapable]
  | case3 done c cs hescapable ih => rwa [unescapeOnto, if_neg hescapable]
  | case4 done c cs hescape ih => rwa [unescapeOnto]; assumption

/-- Plain text in front is unescaped to itself. -/
theorem Plain.unescape_append {lead : List Char} (h : Plain lead) (cs : List Char) :
    unescape (lead ++ cs) = lead ++ unescape cs := by
  have hdone := unescapeOnto_append_done [] lead.reverse cs
  unfold unescape
  rw [h.unescapeOnto_append, List.append_nil, ← List.nil_append lead.reverse, hdone,
    List.reverse_reverse]

/-! ## Reading above a text -/

namespace Scanner

/-- The scanner with a text read before everything that it has read. -/
def above (lead : List Char) (s : Scanner) : Scanner := { s with outer := s.outer ++ lead.reverse }

end Scanner

/-- What is found above a text: the text belongs to what stands before a directive, and to the whole
text. -/
def Finding.above (lead : List Char) : Finding → Finding
  | .directive body s => .directive body (s.above lead)
  | .finished text => .finished (lead ++ text)
  | .unterminated text => .unterminated text

namespace Scanner

/-- Text in front is carried along and changes nothing of what is found behind it. -/
theorem scan_append (lead outer : List Char) (layers : List (List Char)) (rest : List Char) :
    scan (outer ++ lead.reverse) layers rest = (scan outer layers rest).above lead := by
  fun_induction scan outer layers rest with
  | case1 outer => simp [scan, Finding.above]
  | case2 outer layer layers => rfl
  | case3 outer c rest ih => rwa [scan]
  | case4 outer c rest layer layers ih => rwa [scan]
  | case5 outer layers rest ih => rwa [scan]
  | case6 outer rest ih => rwa [scan]
  | case7 outer rest layer layers => rw [scan]; rfl
  | case8 outer c rest hescape hopen hclose ih => rwa [scan] <;> assumption
  | case9 outer c rest hescape hopen hclose layer layers ih => rwa [scan] <;> assumption

/-- Above a text a scanner finds what it finds without the text. -/
theorem next_above (lead : List Char) (s : Scanner) :
    (s.above lead).next = s.next.above lead :=
  scan_append lead s.outer s.layers s.rest

end Scanner

namespace Engine

variable {ρ : Type} [Draws ρ] {e : Engine}

/-- Above plain text an expansion goes as it does without the text, which comes out in front. -/
theorem expandFrom_above {lead : List Char} (hlead : Plain lead) : ∀ (steps : Nat)
    (scanner : Scanner) (s : State) (r : ρ),
    e.expandFrom steps (scanner.above lead) s r =
      (e.expandFrom steps scanner s r).map (lead ++ ·) := by
  intro steps
  induction steps with
  | zero => intro scanner s r; rfl
  | succ steps ih =>
    intro scanner s r
    have hnext := Scanner.next_above lead scanner
    cases hfound : scanner.next with
    | finished text =>
      rw [hfound] at hnext
      rw [expandFrom, expandFrom, hnext, hfound]
      dsimp only [Finding.above]
      rw [hlead.unescape_append]
      rfl
    | unterminated text =>
      rw [hfound] at hnext
      rw [expandFrom, expandFrom, hnext, hfound]
      rfl
    | directive body scanner' =>
      rw [hfound] at hnext
      rw [expandFrom_directive hnext, expandFrom_directive hfound, Outcome.map_bind]
      exact Outcome.bind_congr fun rest _ => ih { scanner' with rest } _ _

/-- **Plain text in front.** It comes out as it is, in front of what the rest is expanded to, and
changes nothing else. -/
theorem expandFrom_plain_append {lead : List Char} (hlead : Plain lead) (cs : List Char)
    (steps : Nat) (s : State) (r : ρ) :
    e.expandFrom steps (.ofText (lead ++ cs)) s r =
      (e.expandFrom steps (.ofText cs) s r).map (lead ++ ·) := by
  have hread : (Scanner.ofText (lead ++ cs)).next = ((Scanner.ofText cs).above lead).next := by
    have hadvanced : Scanner.advance lead (.ofText cs) = (Scanner.ofText cs).above lead := by
      show Scanner.mk (lead.reverse ++ []) [] cs = _
      rw [List.append_nil]
      rfl
    rw [← hadvanced]
    exact Scanner.readOn_plain hlead.not_marker (.ofText cs)
  rw [expandFrom_congr hread, expandFrom_above hlead]

/-- A name of plain text comes out as its value, with the plain text before it in front. -/
theorem expandFrom_plain_name {lead : List Char} (hlead : Plain lead) {name value : String}
    (hname : Plain name.toList) (hline : name ≠ "DNL") {s : State}
    (hvalue : s.lookup? name = some value) (hplain : Plain value.toList) (after : List Char)
    (n : Nat) (r : ρ) :
    e.expandFrom (n + 1)
        (.ofText (lead ++ (['(', '('] ++ name.toList ++ [')', ')'] ++ after))) s r =
      (e.expandFrom n (.ofText after) s r).map fun text => lead ++ (value.toList ++ text) := by
  rw [expandFrom_plain_append hlead, Scanner.ofText_eq_resume,
    expandFrom_name hname hline hvalue, ← Scanner.ofText_eq_resume,
    expandFrom_plain_append hplain, Outcome.map_map]

end Engine

end Template

end ExamPaper
