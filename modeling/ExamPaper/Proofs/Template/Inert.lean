import ExamPaper.Proofs.Template.Plain
import ExamPaper.Proofs.Template.Scanning
import Mathlib.Data.List.Chain

/-!
# Inert text

Text without opening markers and escapes. Unlike plain text it may have commas, parentheses and
backslashes, as long as none of them means anything where it stands.

> Inert text is read to its end (`Inert.next_eq`), and unescaping leaves it as it is
> (`Inert.unescape_eq`). So it is expanded to itself (`Engine.expand_inert`).
-/

namespace ExamPaper

namespace Template

/-- Two characters that mean something to the engine when one follows the other: an opening marker,
or an escape. -/
def isActive (c d : Char) : Bool := (c == '(' && d == '(') || (c == '\\' && isEscapable d)

/-- The text has neither opening markers nor escapes. -/
def Inert (cs : List Char) : Prop := cs.IsChain fun c d => isActive c d = false

instance (cs : List Char) : Decidable (Inert cs) :=
  inferInstanceAs (Decidable (cs.IsChain fun c d => isActive c d = false))

theorem Inert.tail {c : Char} {cs : List Char} (h : Inert (c :: cs)) : Inert cs :=
  (List.isChain_cons.mp h).2

/-- An inert text begins with no opening marker. -/
theorem Inert.not_open {c : Char} {cs : List Char} (h : Inert (c :: cs)) (hc : c = '(') :
    cs.head? ≠ some '(' := by
  intro hd
  have hactive := (List.isChain_cons.mp h).1 '(' hd
  subst hc
  exact absurd hactive (by decide)

/-- It begins with no escape. -/
theorem Inert.not_escape {c : Char} {cs : List Char} (h : Inert (c :: cs)) (hc : c = '\\')
    {d : Char} (hd : cs.head? = some d) : isEscapable d = false := by
  have hactive := (List.isChain_cons.mp h).1 d hd
  subst hc
  simpa [isActive] using hactive

theorem isActive_of_not_isEscapable {d : Char} (h : isEscapable d = false) (c : Char) :
    isActive c d = false := by
  have hopen : (d == '(') = false := beq_eq_false_iff_ne.mpr (ne_of_not_isEscapable h).2.1
  unfold isActive
  rw [hopen, h, Bool.and_false, Bool.and_false, Bool.or_false]

/-- Inert text with plain text behind it is inert. -/
theorem Inert.append_plain {cs ds : List Char} (h : Inert cs) (hds : Plain ds) :
    Inert (cs ++ ds) := by
  refine List.isChain_append.mpr ⟨h, ?_, ?_⟩
  · induction ds with
    | nil => exact .nil
    | cons d ds ih =>
      obtain ⟨-, hds⟩ := List.forall_mem_cons.mp hds
      refine List.isChain_cons.mpr ⟨?_, ih hds⟩
      intro next hnext
      exact isActive_of_not_isEscapable (hds next (List.mem_of_mem_head? hnext)) d
  · intro c _ d hd
    exact isActive_of_not_isEscapable (hds d (List.mem_of_mem_head? hd)) c

/-- Inert text is read to its end. -/
theorem Inert.next_eq : ∀ {cs : List Char}, Inert cs → ∀ outer : List Char,
    Scanner.next ⟨outer, [], cs⟩ = .finished (outer.reverse ++ cs)
  | [], _, outer => by
    rw [List.append_nil]
    rfl
  | [c], _, outer => by
    have hlone : Scanner.Lone c [] := ⟨by simp, by simp, by simp⟩
    rw [Scanner.next_lone hlone, ← List.reverse_cons]
    rfl
  | c :: d :: cs, h, outer => by
    have hrest : outer.reverse ++ c :: d :: cs = (c :: outer).reverse ++ d :: cs := by simp
    rw [hrest]
    by_cases hescape : c = '\\'
    · -- the two characters are read as one
      subst hescape
      rw [Scanner.next_escape, List.append_cons, ← List.reverse_cons]
      exact h.tail.tail.next_eq (d :: '\\' :: outer)
    by_cases hclose : c = ')'
    · subst hclose
      rw [Scanner.next_stray, h.tail.next_eq]
    · have hlone : Scanner.Lone c (d :: cs) :=
        ⟨fun hc => absurd hc hescape, h.not_open, fun hc => absurd hc hclose⟩
      rw [Scanner.next_lone hlone]
      exact h.tail.next_eq (c :: outer)

/-- Unescaping leaves inert text as it is. -/
theorem Inert.unescapeOnto_eq {cs : List Char} (h : Inert cs) :
    ∀ done : List Char, unescapeOnto done cs = done.reverse ++ cs := by
  induction cs with
  | nil => intro done; rw [unescapeOnto, List.append_nil]
  | cons c cs ih =>
    intro done
    have hkept : unescapeOnto done (c :: cs) = unescapeOnto (c :: done) cs := by
      by_cases hc : c = '\\'
      · subst hc
        cases cs with
        | nil => rfl
        | cons d cs =>
          have hd : isEscapable d = false := h.not_escape rfl rfl
          rw [unescapeOnto, hd, if_neg (by simp), unescapeOnto_cons (ne_of_not_isEscapable hd).1]
      · exact unescapeOnto_cons hc done cs
    rw [hkept, ih h.tail, List.reverse_cons, List.append_assoc]
    rfl

/-- An inert text has no escape to take back. -/
theorem Inert.unescape_eq {cs : List Char} (h : Inert cs) : unescape cs = cs :=
  h.unescapeOnto_eq []

/-- Inert text is expanded to itself, if any text may be expanded at all. -/
theorem Engine.expand_inert {ρ : Type} [Draws ρ] {e : Engine} {text : String}
    (h : Inert text.toList) (hsteps : e.maxSteps ≠ 0) (s : State) (r : ρ) :
    e.expand text s r = ⟨.ok text, s, r⟩ := by
  have hnext : (Scanner.ofText text.toList).next = .finished text.toList := h.next_eq []
  obtain ⟨n, hn⟩ := Nat.exists_eq_succ_of_ne_zero hsteps
  unfold expand
  rw [hn, expandFrom, hnext]
  simp [h.unescape_eq, Except.map]

end Template

end ExamPaper
