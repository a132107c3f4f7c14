import ExamPaper.Proofs.Template.Scanning

/-!
# Going on and starting over

An expansion goes on from the place of the directive it has replaced. `expandRestarting` starts over
instead: it looks for the first directive of the whole text every time. The two can differ in one
way only. A closing parenthesis that was read on its own, after a marker, may stand right before the
replaced directive; if another one now follows it, the two close the marker when the text is read
from the start, but not when the scanner goes on between them (`isSeam`).

> Wherever no such seam comes up, going on and starting over agree in everything
> (`expand_eq_restart`). At a seam they need not (`expand_seam`).

What has been read is `Settled` if reading it again, with anything that does not join onto it, ends
in the same scanner. A scanner keeps its texts settled, that before each open marker included, so
that they are when the marker is closed and the scanner falls back to them (`closed_of_directive`).
-/

namespace ExamPaper

namespace Template

/-! ## What has been read -/

/-- A text read, its latest character first, that ends in a backslash which escapes what comes
next. -/
def escapes : List Char → Bool
  | '\\' :: before => !escapes before
  | _ => false

theorem escapes_cons {c : Char} (h : c ≠ '\\') (before : List Char) :
    escapes (c :: before) = false := by
  unfold escapes
  split
  · rename_i heq
    exact absurd (List.cons.inj heq).1 h
  · rfl

/-- An escape is complete. -/
theorem escapes_escape {before : List Char} (h : escapes before = false) (c : Char) :
    escapes (c :: '\\' :: before) = false := by
  by_cases hc : c = '\\'
  · subst hc
    rw [escapes, escapes, h]
    rfl
  · exact escapes_cons hc _

namespace Scanner

/-- What has been read since the innermost open marker. -/
def top (s : Scanner) : List Char :=
  match s.layers with
  | [] => s.outer
  | layer :: _ => layer

/-- What is read ends in the parenthesis `c`, and it is not escaped. -/
def endsIn (c : Char) (s : Scanner) : Bool :=
  match s.top with
  | d :: before => d == c && !escapes before
  | [] => false

/-- What has been read since a marker ends in a closing parenthesis, and what is left to read begins
with another one. -/
def isSeam (s : Scanner) : Bool :=
  !s.layers.isEmpty && s.endsIn ')' && s.rest.head? == some ')'

theorem top_advance (cs : List Char) (s : Scanner) :
    (s.advance cs).top = cs.reverse ++ s.top := by
  obtain ⟨outer, layers, rest⟩ := s
  cases layers <;> rfl

/-- A character that has just been read is what is read ends in, unless it is escaped. -/
theorem endsIn_advance (c d : Char) (s : Scanner) :
    (s.advance [c]).endsIn d = (c == d && !escapes s.top) := by
  unfold endsIn
  rw [top_advance]
  rfl

/-- Nothing that is read next joins with the end of what has been read. -/
structure Apart (s : Scanner) (rest : List Char) : Prop where
  opening : s.endsIn '(' = true → rest.head? ≠ some '('
  closing : s.layers ≠ [] → s.endsIn ')' = true → rest.head? ≠ some ')'

/-- What has been read is read in the same way from the start, whatever comes next. -/
structure Settled (s : Scanner) : Prop where
  again : ∀ rest, s.Apart rest → (ofText (s.readText ++ rest)).next = next { s with rest }
  not_escapes : escapes s.top = false

/-- The scanner may have stood before a marker. -/
structure Closed (s : Scanner) : Prop where
  settled : s.Settled
  not_open : s.endsIn '(' = false

/-- What was read before each open marker, from the innermost on. -/
def Below (outer : List Char) : List (List Char) → Prop
  | [] => True
  | _ :: layers => Closed { outer, layers, rest := [] } ∧ Below outer layers

/-! ## Settled texts stay settled -/

variable {s : Scanner} {c : Char}

theorem Settled.withRest (h : s.Settled) (rest : List Char) : Settled { s with rest } :=
  ⟨fun rest hapart => h.again rest ⟨hapart.opening, hapart.closing⟩, h.not_escapes⟩

theorem Closed.withRest (h : s.Closed) (rest : List Char) : Closed { s with rest } :=
  ⟨h.settled.withRest rest, h.not_open⟩

/-- Nothing has been read at the start. -/
theorem settled_ofText (text : List Char) : (ofText text).Settled :=
  ⟨fun _ _ => rfl, rfl⟩

/-- A text stays settled over an escape. -/
theorem Settled.escape (h : s.Settled) : (s.advance ['\\', c]).Settled where
  again rest _ := by
    have hapart : s.Apart ('\\' :: c :: rest) := ⟨fun _ => by simp, fun _ _ => by simp⟩
    rw [readText_advance, List.append_assoc, ← advance_withRest]
    exact (h.again _ hapart).trans next_escape
  not_escapes := by
    rw [top_advance]
    exact escapes_escape h.not_escapes c

/-- A text stays settled over a marker that opens. -/
theorem Settled.opened (h : s.Settled) (hopen : s.endsIn '(' = false) : s.opened.Settled where
  again rest _ := by
    have hapart : s.Apart ('(' :: '(' :: rest) :=
      ⟨fun htop => absurd (hopen.symm.trans htop) (by decide), fun _ _ => by simp⟩
    rw [readText_opened, List.append_assoc]
    exact (h.again _ hapart).trans next_open
  not_escapes := rfl

/-- A text stays settled over a character that does not join with it. -/
theorem Settled.lone (h : s.Settled) (hc : c ≠ '\\') {rest : List Char}
    (hapart : s.Apart (c :: rest)) : (s.advance [c]).Settled where
  again rest' hapart' := by
    rw [readText_advance, List.append_assoc, ← advance_withRest]
    refine (h.again (c :: rest') ⟨hapart.opening, hapart.closing⟩).trans ?_
    by_cases hstray : c = ')' ∧ s.layers = []
    · -- without an open marker it does not matter what follows
      obtain ⟨rfl, hlayers⟩ := hstray
      rw [advance_withRest]
      exact next_stray_of_layers hlayers rest'
    · refine next_lone ⟨fun h => absurd h hc, fun hparen => ?_, fun hparen => ?_⟩
      · refine hapart'.opening ?_
        rw [endsIn_advance, hparen, h.not_escapes]
        rfl
      · refine hapart'.closing ?_ ?_
        · rw [ne_eq, layers_advance_eq_nil]
          exact fun hlayers => hstray ⟨hparen, hlayers⟩
        · rw [endsIn_advance, hparen, h.not_escapes]
          rfl
  not_escapes := by
    rw [top_advance]
    exact escapes_cons hc _

/-- Nothing joins with an escape. -/
theorem apart_escape {rest : List Char} (h : s.Settled) : (s.advance ['\\', c]).Apart rest := by
  have hends : ∀ d, (s.advance ['\\', c]).endsIn d = false := by
    intro d
    unfold endsIn
    rw [top_advance]
    show (c == d && !escapes ('\\' :: s.top)) = false
    rw [escapes, h.not_escapes]
    simp
  exact ⟨fun htop => absurd ((hends _).symm.trans htop) (by decide),
    fun _ htop => absurd ((hends _).symm.trans htop) (by decide)⟩

/-- Nothing joins with a character that is read on its own. -/
theorem apart_lone {rest : List Char} (h : Lone c rest) : (s.advance [c]).Apart rest := by
  constructor
  · intro htop
    rw [endsIn_advance, Bool.and_eq_true, beq_iff_eq] at htop
    exact h.2.1 htop.1
  · intro _ htop
    rw [endsIn_advance, Bool.and_eq_true, beq_iff_eq] at htop
    exact h.2.2 htop.1

/-- Nothing joins with a closing parenthesis outside of markers. -/
theorem apart_stray {rest : List Char} (h : s.layers = []) : (s.advance [')']).Apart rest := by
  constructor
  · intro htop
    rw [endsIn_advance] at htop
    exact absurd htop (by simp)
  · intro hlayers
    exact absurd ((layers_advance_eq_nil _ _).mpr h) hlayers

/-- Characters that are read change nothing below the innermost marker. -/
theorem below_advance (cs : List Char) (h : Below s.outer s.layers) :
    Below (s.advance cs).outer (s.advance cs).layers := by
  obtain ⟨outer, layers, rest⟩ := s
  cases layers with
  | nil => trivial
  | cons layer layers => exact h

theorem endsIn_of_apart_open {rest : List Char} (h : s.Apart ('(' :: rest)) :
    s.endsIn '(' = false :=
  Bool.eq_false_iff.mpr fun htop => h.opening htop rfl

/-- When a marker is closed, the scanner falls back to what was read before it. -/
theorem closed_of_directive {rest : List Char} (h : Pieces rest) :
    ∀ {s : Scanner}, s.Settled → s.Apart rest → Below s.outer s.layers →
      ∀ {body : List Char} {s' : Scanner}, next { s with rest } = .directive body s' →
        Closed s' ∧ Below s'.outer s'.layers := by
  induction h with
  | done =>
    intro s _ _ _ body s' hnext
    obtain ⟨outer, layers, _⟩ := s
    cases layers <;> exact absurd hnext (by simp [next, scan])
  | @escape c rest _ ih =>
    intro s hsettled _ hbelow body s' hnext
    rw [next_escape, advance_withRest] at hnext
    exact ih hsettled.escape (apart_escape hsettled) (below_advance _ hbelow) hnext
  | @opening rest _ ih =>
    intro s hsettled hapart hbelow body s' hnext
    rw [next_open] at hnext
    have hopen : s.endsIn '(' = false := endsIn_of_apart_open hapart
    -- where the scanner stands now is what it falls back to when this marker is closed
    have hopened : Below s.opened.outer s.opened.layers :=
      ⟨⟨hsettled.withRest [], hopen⟩, hbelow⟩
    have hnone : s.opened.Apart rest :=
      ⟨fun htop => absurd htop Bool.false_ne_true, fun _ htop => absurd htop Bool.false_ne_true⟩
    exact ih (hsettled.opened hopen) hnone hopened hnext
  | @closing rest _ ih =>
    intro s hsettled hapart hbelow body s' hnext
    cases hlayers : s.layers with
    | nil =>
      -- two characters that close nothing, one after the other
      have hfirst : (s.advance [')']).Settled := hsettled.lone (by decide) hapart
      have hlayers' : (s.advance [')']).layers = [] := (layers_advance_eq_nil _ _).mpr hlayers
      have hsecond : ((s.advance [')']).advance [')']).Settled :=
        hfirst.lone (by decide) (apart_stray hlayers : (s.advance [')']).Apart (')' :: rest))
      rw [next_stray_of_layers hlayers, next_stray_of_layers hlayers'] at hnext
      exact ih hsecond (apart_stray hlayers') (below_advance _ (below_advance _ hbelow)) hnext
    | cons layer layers =>
      rw [hlayers, next_close] at hnext
      obtain ⟨-, rfl⟩ := Finding.directive.inj hnext
      rw [hlayers] at hbelow
      exact ⟨hbelow.1.withRest rest, hbelow.2⟩
  | @lone c rest hlone _ ih =>
    intro s hsettled hapart hbelow body s' hnext
    by_cases hc : c = '\\'
    · -- a backslash on its own is the last character, and no directive follows
      obtain rfl := hlone.1 hc
      obtain ⟨outer, layers, _⟩ := s
      subst hc
      cases layers <;> exact absurd hnext (by simp [next, scan])
    · rw [next_lone hlone, advance_withRest] at hnext
      exact ih (hsettled.lone hc hapart) (apart_lone hlone) (below_advance _ hbelow) hnext

end Scanner

namespace Engine

variable {ρ : Type} [Draws ρ] {e : Engine}

/-! ## Two ways to expand a text -/

/-- Expands a text by looking for its first directive from the start of the text, at most the given
number of times. -/
def expandRestarting (e : Engine) : Nat → List Char → State → ρ → Outcome ρ (List Char)
  | 0, _, s, r => ⟨.error (.expansionLimit e.maxSteps), s, r⟩
  | steps + 1, text, s, r =>
    match locate text with
    | .error rest => ⟨.error (unterminatedError rest), s, r⟩
    | .ok none => ⟨.ok (unescape text), s, r⟩
    | .ok (some found) =>
      (carryOut e found.body found.after s r).bind
        fun after s r => expandRestarting e steps (found.before ++ after) s r

/-- Expands a text, starting over after every directive. -/
def restart (e : Engine) (text : String) (s : State) (r : ρ) : Outcome ρ String :=
  (expandRestarting e e.maxSteps text.toList s r).map String.ofList

/-- Whether no directive is replaced at a seam, in at most the given number of steps. -/
def seamless (e : Engine) : Nat → Scanner → State → ρ → Bool
  | 0, _, _, _ => true
  | steps + 1, scanner, s, r =>
    match scanner.next with
    | .directive body scanner =>
      let o := carryOut e body scanner.rest s r
      match o.result with
      | .error _ => true
      | .ok rest =>
        !Scanner.isSeam { scanner with rest } && seamless e steps { scanner with rest } o.state o.rng
    | _ => true

/-- Where there is no seam, what follows does not join with what has been read. -/
theorem apart_of_not_isSeam {s : Scanner} (hclosed : s.Closed) (h : s.isSeam = false) :
    s.Apart s.rest where
  opening htop := absurd (hclosed.not_open.symm.trans htop) (by decide)
  closing hlayers htop hhead := by
    unfold Scanner.isSeam at h
    rw [htop, hhead] at h
    exact absurd h (by simp [hlayers])

/-- Going on is starting over, from every scanner whose text is settled. -/
theorem expandFrom_eq_expandRestarting : ∀ (steps : Nat) {scanner : Scanner} {s : State} {r : ρ},
    scanner.Settled → scanner.Apart scanner.rest → Scanner.Below scanner.outer scanner.layers →
    seamless e steps scanner s r = true →
      expandFrom e steps scanner s r = expandRestarting e steps scanner.text s r := by
  intro steps
  induction steps with
  | zero => intro scanner s r _ _ _ _; rfl
  | succ steps ih =>
    intro scanner s r hsettled hapart hbelow hseamless
    have hsame : (Scanner.ofText scanner.text).next = scanner.next :=
      hsettled.again scanner.rest hapart
    rw [expandRestarting]
    unfold locate
    rw [hsame]
    cases hnext : scanner.next with
    | finished text =>
      have hcuts := Scanner.cuts_next scanner
      rw [hnext] at hcuts
      have htext : scanner.text = text := hcuts
      rw [expandFrom, hnext, htext]
    | unterminated rest =>
      rw [expandFrom, hnext]
    | directive body scanner' =>
      obtain ⟨hclosed, hbelow'⟩ :=
        Scanner.closed_of_directive (Scanner.pieces _) hsettled hapart hbelow hnext
      -- both carry out this directive, and differ only in how they go on
      rw [expandFrom_directive hnext]
      refine Outcome.bind_congr fun rest hrest => ?_
      rw [seamless, hnext] at hseamless
      dsimp only at hseamless
      rw [hrest] at hseamless
      obtain ⟨hseam, hseamless⟩ := Bool.and_eq_true_iff.mp hseamless
      have hresumed : Scanner.Closed { scanner' with rest } := hclosed.withRest rest
      exact ih hresumed.settled
        (apart_of_not_isSeam hresumed (by simpa using hseam)) hbelow' hseamless

/-- **Going on is starting over.** If no directive is replaced at a seam, an expansion that goes on
from each replacement ends as one that starts over does: with the same text or error, the same
variables and the same random source. -/
theorem expand_eq_restart {text : String} {s : State} {r : ρ}
    (h : seamless e e.maxSteps (.ofText text.toList) s r = true) :
    e.expand text s r = e.restart text s r := by
  have hapart : (Scanner.ofText text.toList).Apart text.toList :=
    ⟨fun htop => absurd htop Bool.false_ne_true, fun _ htop => absurd htop Bool.false_ne_true⟩
  unfold expand restart
  rw [expandFrom_eq_expandRestarting e.maxSteps (Scanner.settled_ofText text.toList) hapart trivial h]
  rfl

theorem expand_eq_restart_nested :
    seamless bare bare.maxSteps
      (.ofText "((ID,a((DNL)) gone\n((ID,b)))) (c)".toList) {} zeroSource = true ∧
    bare.expand "((ID,a((DNL)) gone\n((ID,b)))) (c)" {} zeroSource =
      bare.restart "((ID,a((DNL)) gone\n((ID,b)))) (c)" {} zeroSource ∧
    (bare.expand "((ID,a((DNL)) gone\n((ID,b)))) (c)" {} zeroSource).result = .ok "ab (c)" := by
  have hseamless : seamless bare bare.maxSteps
      (.ofText "((ID,a((DNL)) gone\n((ID,b)))) (c)".toList) {} zeroSource = true := rfl
  exact ⟨hseamless, expand_eq_restart hseamless, rfl⟩

/-- A directive that leaves nothing behind stands between two closing parentheses. Starting over
reads them as the end of the directive before; going on finds no end. -/
theorem expand_seam :
    (bare.expand "((ID,a)((SAVE,x,ID,y)))" {} zeroSource).result =
      .error (.unterminated "((ID,a))") ∧
    (bare.restart "((ID,a)((SAVE,x,ID,y)))" {} zeroSource).result = .ok "a" :=
  ⟨rfl, rfl⟩

end Engine

end Template

end ExamPaper
