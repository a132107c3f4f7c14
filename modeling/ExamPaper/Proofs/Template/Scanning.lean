import ExamPaper.Random.Generator
import ExamPaper.Template.Engine

/-!
# What a scanner reads, and what an engine does with it

A scanner takes the text that is left to read piece by piece: an escape, an opening marker, a closing
marker, or a single character. One lemma for each says where the scanner stands afterwards; what has
been read goes to the innermost layer (`advance`).

> What is found is part of the text (`cuts_next`). An expansion depends on its scanner only through
> what comes next (`expandFrom_congr`). It goes on from a directive with whatever `carryOut` puts in
> the place of the directive and of what follows it (`expandFrom_directive`), and changes the
> variables only (`expand_metadata`). One that ends is the same with more steps
> (`expandFrom_succ_of_ok`).
-/

namespace ExamPaper

namespace Template

/-! ## Outcomes one after another -/

namespace Outcome

variable {ρ α β γ : Type}

/-- Goes on with the value, the state and the random source, unless there is an error. -/
def bind (o : Outcome ρ α) (f : α → State → ρ → Outcome ρ β) : Outcome ρ β :=
  match o.result with
  | .error e => ⟨.error e, o.state, o.rng⟩
  | .ok a => f a o.state o.rng

/-- The outcome with its value changed. -/
def map (f : α → β) (o : Outcome ρ α) : Outcome ρ β := { o with result := o.result.map f }

/-- Going on alike from the value leads to one outcome. -/
theorem bind_congr {o : Outcome ρ α} {f g : α → State → ρ → Outcome ρ β}
    (h : ∀ a, o.result = .ok a → f a o.state o.rng = g a o.state o.rng) :
    o.bind f = o.bind g := by
  unfold bind
  cases ho : o.result with
  | error e => rfl
  | ok a => exact h a ho

theorem bind_map (o : Outcome ρ α) (f : α → β) (g : β → State → ρ → Outcome ρ γ) :
    (o.map f).bind g = o.bind fun a s r => g (f a) s r := by
  unfold bind map
  cases o.result with
  | error e => rfl
  | ok a => rfl

theorem bind_assoc (o : Outcome ρ α) (f : α → State → ρ → Outcome ρ β)
    (g : β → State → ρ → Outcome ρ γ) :
    (o.bind f).bind g = o.bind fun a s r => (f a s r).bind g := by
  unfold bind
  cases o.result with
  | error e => rfl
  | ok a => rfl

theorem map_id (o : Outcome ρ α) : (o.map fun a => a) = o := by
  obtain ⟨result, s, r⟩ := o
  cases result <;> rfl

theorem map_map (o : Outcome ρ α) (f : α → β) (g : β → γ) :
    (o.map f).map g = o.map fun a => g (f a) := by
  obtain ⟨result, s, r⟩ := o
  cases result <;> rfl

theorem map_bind (o : Outcome ρ α) (f : α → State → ρ → Outcome ρ β) (g : β → γ) :
    (o.bind f).map g = o.bind fun a s r => (f a s r).map g := by
  obtain ⟨result, s, r⟩ := o
  cases result <;> rfl

theorem bind_of_ok {o : Outcome ρ α} {a : α} (h : o.result = .ok a)
    (f : α → State → ρ → Outcome ρ β) : o.bind f = f a o.state o.rng := by
  unfold bind
  rw [h]

/-- What both steps keep of the state, two steps keep. -/
theorem state_bind {P : State → Prop} {o : Outcome ρ α} {f : α → State → ρ → Outcome ρ β}
    (h : P o.state) (hf : ∀ a, P (f a o.state o.rng).state) : P (o.bind f).state := by
  unfold bind
  cases o.result with
  | error e => exact h
  | ok a => exact hf a

/-- A value found in two steps is found in the second from a value of the first. -/
theorem result_bind {o : Outcome ρ α} {f : α → State → ρ → Outcome ρ β} {b : β}
    (h : (o.bind f).result = .ok b) :
    ∃ a, o.result = .ok a ∧ (f a o.state o.rng).result = .ok b := by
  obtain ⟨result, s, r⟩ := o
  cases result with
  | error e => exact absurd h (by simp [bind])
  | ok a => exact ⟨a, rfl, h⟩

/-- Where a value comes from. -/
theorem result_map {o : Outcome ρ α} {f : α → β} {b : β} (h : (o.map f).result = .ok b) :
    ∃ a, o.result = .ok a ∧ b = f a := by
  obtain ⟨result, s, r⟩ := o
  cases result with
  | error e => exact absurd h (by simp [map, Except.map])
  | ok a => exact ⟨a, rfl, (Except.ok.inj h).symm⟩

/-- Where an error comes from. -/
theorem error_of_map {o : Outcome ρ α} {f : α → β} {error : TemplateError}
    (h : (o.map f).result = .error error) : o.result = .error error := by
  obtain ⟨result, s, r⟩ := o
  cases result with
  | error e => rw [← Except.error.inj h]
  | ok a => exact absurd h (by simp [map, Except.map])

end Outcome

namespace Scanner

/-! ## Reading -/

/-- The scanner with more text read, which is not taken from what is left to read. -/
def advance (cs : List Char) (s : Scanner) : Scanner :=
  match s.layers with
  | [] => { s with outer := cs.reverse ++ s.outer }
  | layer :: layers => { s with layers := (cs.reverse ++ layer) :: layers }

theorem advance_nil (s : Scanner) : s.advance [] = s := by
  obtain ⟨outer, layers, rest⟩ := s
  cases layers <;> rfl

/-- Characters are read one after the other. -/
theorem advance_append (cs ds : List Char) (s : Scanner) :
    s.advance (cs ++ ds) = (s.advance cs).advance ds := by
  obtain ⟨outer, layers, rest⟩ := s
  cases layers <;> simp [advance]

/-- What has been read and what is left are apart. -/
theorem advance_resume (cs ds : List Char) (s : Scanner) :
    (s.resume ds).advance cs = (s.advance cs).resume ds := by
  obtain ⟨outer, layers, rest⟩ := s
  cases layers <;> rfl

theorem resume_append (cs ds : List Char) (s : Scanner) :
    s.resume (cs ++ ds) = (s.resume ds).resume cs := by
  simp [resume]

/-- The scanner with one more marker open. -/
def opened (s : Scanner) : Scanner := { s with layers := [] :: s.layers }

/-- The character does not make a marker or an escape with what follows it. -/
def Lone (c : Char) (rest : List Char) : Prop :=
  (c = '\\' → rest = []) ∧ (c = '(' → rest.head? ≠ some '(') ∧ (c = ')' → rest.head? ≠ some ')')

variable {outer : List Char} {layers : List (List Char)} {rest : List Char}

/-- A character on its own is read. -/
theorem next_lone {c : Char} (h : Lone c rest) :
    next ⟨outer, layers, c :: rest⟩ = next (advance [c] ⟨outer, layers, rest⟩) := by
  obtain ⟨hescape, hopen, hclose⟩ := h
  unfold next
  dsimp only
  rw [scan.eq_def]
  split
  · contradiction
  · rename_i heq
    obtain ⟨rfl, rfl⟩ := List.cons.inj heq
    exact absurd (hescape rfl) (by simp)
  · rename_i heq
    obtain ⟨rfl, rfl⟩ := List.cons.inj heq
    exact absurd rfl (hopen rfl)
  · rename_i heq
    obtain ⟨rfl, rfl⟩ := List.cons.inj heq
    exact absurd rfl (hclose rfl)
  · rename_i heq
    obtain ⟨rfl, rfl⟩ := List.cons.inj heq
    cases layers <;> rfl

/-- An escape is read at once. -/
theorem next_escape {c : Char} : next ⟨outer, layers, '\\' :: c :: rest⟩ =
    next (advance ['\\', c] ⟨outer, layers, rest⟩) := by
  cases layers with
  | nil => unfold next; rw [scan]; rfl
  | cons layer layers => unfold next; rw [scan]; rfl

/-- A marker opens a layer. -/
theorem next_open :
    next ⟨outer, layers, '(' :: '(' :: rest⟩ = next ⟨outer, [] :: layers, rest⟩ := by
  unfold next
  rw [scan]

/-- A marker closes the innermost layer, and that is the directive. -/
theorem next_close {layer : List Char} : next ⟨outer, layer :: layers, ')' :: ')' :: rest⟩ =
    .directive layer.reverse ⟨outer, layers, rest⟩ := by
  unfold next
  rw [scan]

/-- Closing markers that close nothing are read as any other text. -/
theorem next_stray : ∀ {outer rest : List Char},
    next ⟨outer, [], ')' :: rest⟩ = next ⟨')' :: outer, [], rest⟩ := by
  intro outer rest
  induction rest generalizing outer with
  | nil => exact next_lone ⟨by simp, by simp, by simp⟩
  | cons c rest ih =>
    by_cases hc : c = ')'
    · subst hc
      rw [ih]
      unfold next
      rw [scan]
    · exact next_lone ⟨by simp, by simp, fun _ h => hc (Option.some.inj h)⟩

/-! ## Reading in pieces -/

/-- A text taken in the pieces that a scanner reads. -/
inductive Pieces : List Char → Prop where
  | done : Pieces []
  | escape {c : Char} {rest : List Char} : Pieces rest → Pieces ('\\' :: c :: rest)
  | opening {rest : List Char} : Pieces rest → Pieces ('(' :: '(' :: rest)
  | closing {rest : List Char} : Pieces rest → Pieces (')' :: ')' :: rest)
  | lone {c : Char} {rest : List Char} : Lone c rest → Pieces rest → Pieces (c :: rest)

/-- Every text can be taken in pieces. -/
theorem pieces : ∀ cs : List Char, Pieces cs
  | [] => .done
  | [c] => .lone ⟨fun _ => rfl, by simp, by simp⟩ .done
  | c :: d :: cs => by
    by_cases hescape : c = '\\'
    · subst hescape
      exact .escape (pieces cs)
    by_cases hopening : c = '(' ∧ d = '('
    · obtain ⟨rfl, rfl⟩ := hopening
      exact .opening (pieces cs)
    by_cases hclosing : c = ')' ∧ d = ')'
    · obtain ⟨rfl, rfl⟩ := hclosing
      exact .closing (pieces cs)
    refine .lone ⟨fun h => absurd h hescape, fun hc hd => ?_, fun hc hd => ?_⟩ (pieces (d :: cs))
    · exact hopening ⟨hc, Option.some.inj hd⟩
    · exact hclosing ⟨hc, Option.some.inj hd⟩

/-! ## What is found is part of the text -/

/-- What is read is added to what has been read. -/
theorem readText_advance (cs : List Char) (s : Scanner) :
    (s.advance cs).readText = s.readText ++ cs := by
  obtain ⟨outer, layers, rest⟩ := s
  cases layers with
  | nil => simp [advance, readText, openText]
  | cons layer layers => simp [advance, readText, openText]

theorem advance_withRest (cs rest : List Char) (s : Scanner) :
    advance cs { s with rest } = { s.advance cs with rest } := by
  obtain ⟨outer, layers, _⟩ := s
  cases layers <;> rfl

/-- Reading a character neither opens nor closes a marker. -/
theorem layers_advance_eq_nil (cs : List Char) (s : Scanner) :
    (s.advance cs).layers = [] ↔ s.layers = [] := by
  obtain ⟨outer, layers, rest⟩ := s
  cases layers <;> simp [advance]

theorem readText_opened (s : Scanner) : s.opened.readText = s.readText ++ ['(', '('] := by
  simp [opened, readText, openText]

/-- Without an open marker a closing parenthesis is read on its own, whatever follows it. -/
theorem next_stray_of_layers {s : Scanner} (h : s.layers = []) (rest : List Char) :
    next { s with rest := ')' :: rest } = next { s.advance [')'] with rest } := by
  obtain ⟨outer, layers, _⟩ := s
  obtain rfl := h
  exact next_stray

/-- The parts that a finding cuts a text into are those of the text. -/
def Cuts (text : List Char) : Finding → Prop
  | .directive body s => text = s.readText ++ '(' :: '(' :: body ++ ')' :: ')' :: s.rest
  | .finished whole => text = whole
  | .unterminated rest => ∃ before, text = before ++ rest

/-- What is found from here on is part of what has been read and what is left. -/
theorem cuts_of_pieces {rest : List Char} (h : Pieces rest) :
    ∀ s : Scanner, Cuts (s.readText ++ rest) (next { s with rest }) := by
  induction h with
  | done =>
    intro s
    obtain ⟨outer, layers, _⟩ := s
    cases layers with
    | nil => simp [next, scan, Cuts, readText, openText]
    | cons layer layers =>
      exact ⟨outer.reverse ++ openText layers, by simp [readText, openText]⟩
  | @escape c rest _ ih =>
    intro s
    have hadvanced := ih (s.advance ['\\', c])
    rwa [readText_advance, List.append_assoc, ← advance_withRest, ← next_escape] at hadvanced
  | @opening rest _ ih =>
    intro s
    have hopened := ih s.opened
    rw [readText_opened, List.append_assoc] at hopened
    exact next_open ▸ hopened
  | @closing rest _ ih =>
    intro s
    cases hlayers : s.layers with
    | nil =>
      have hlayers' : (s.advance [')']).layers = [] := (layers_advance_eq_nil _ _).mpr hlayers
      have hadvanced := ih ((s.advance [')']).advance [')'])
      rwa [readText_advance, readText_advance, List.append_assoc, List.append_assoc,
        ← next_stray_of_layers hlayers', ← next_stray_of_layers hlayers, hlayers] at hadvanced
    | cons layer layers =>
      rw [next_close]
      simp [Cuts, readText, hlayers, openText]
  | @lone c rest hlone _ ih =>
    intro s
    have hadvanced := ih (s.advance [c])
    rwa [readText_advance, List.append_assoc, ← advance_withRest, ← next_lone hlone] at hadvanced

/-- What is found is part of the text. -/
theorem cuts_next (s : Scanner) : Cuts s.text s.next := cuts_of_pieces (pieces s.rest) s

/-! ## Directives in front of what is left to read -/

/-- A text without escapes and parentheses is read on. -/
theorem next_resume {cs : List Char} (h : ∀ c ∈ cs, c ≠ '\\' ∧ c ≠ '(' ∧ c ≠ ')') :
    ∀ s : Scanner, (s.resume cs).next = (s.advance cs).next := by
  induction cs with
  | nil => intro s; rw [advance_nil]; rfl
  | cons c cs ih =>
    obtain ⟨⟨hescape, hopen, hclose⟩, hcs⟩ := List.forall_mem_cons.mp h
    intro s
    have hlone : Lone c (cs ++ s.rest) :=
      ⟨fun h => absurd h hescape, fun h => absurd h hopen, fun h => absurd h hclose⟩
    have hfirst : (s.resume (c :: cs)).next = ((s.resume cs).advance [c]).next := next_lone hlone
    have hsplit : s.advance (c :: cs) = (s.advance [c]).advance cs := advance_append [c] cs s
    rw [hfirst, advance_resume, ih hcs, hsplit]

theorem next_resume_open (s : Scanner) : (s.resume ['(', '(']).next = s.opened.next := next_open

/-- What has been read since a marker was opened is the directive that is closed. -/
theorem next_resume_close (body : List Char) (s : Scanner) :
    ((s.opened.advance body).resume [')', ')']).next = .directive body s := by
  have hclose : ((s.opened.advance body).resume [')', ')']).next =
      .directive (body.reverse ++ []).reverse s := next_close
  rw [hclose, List.append_nil, List.reverse_reverse]

/-- A text is read like one that stands in front of nothing. -/
theorem ofText_eq_resume (cs : List Char) : ofText cs = (ofText []).resume cs := by
  simp [ofText, resume]

/-- The text is read to its end wherever it stands. -/
def ReadOn (cs : List Char) : Prop := ∀ s : Scanner, (s.resume cs).next = (s.advance cs).next

theorem ReadOn.append {cs ds : List Char} (hcs : ReadOn cs) (hds : ReadOn ds) :
    ReadOn (cs ++ ds) := by
  intro s
  rw [resume_append, hcs, advance_resume, hds, ← advance_append]

theorem readOn_nil : ReadOn [] := by
  intro s
  rw [advance_nil]
  rfl

/-- A text without escapes and parentheses is read to its end. -/
theorem readOn_plain {cs : List Char} (h : ∀ c ∈ cs, c ≠ '\\' ∧ c ≠ '(' ∧ c ≠ ')') : ReadOn cs :=
  next_resume h

/-- Text that is read on after text outside of markers is found to be the rest of it. -/
theorem next_finished {cs : List Char} (h : ReadOn cs) (done : List Char) :
    (((ofText []).advance done).resume cs).next = .finished (done ++ cs) := by
  rw [h, ← advance_append]
  show Finding.finished ((done ++ cs).reverse ++ []).reverse = _
  rw [List.append_nil, List.reverse_reverse]

/-- Text that is read on makes one directive when it stands between markers. -/
theorem next_directive {body : List Char} (h : ReadOn body) (s : Scanner) :
    (s.resume (['(', '('] ++ body ++ [')', ')'])).next = .directive body s := by
  rw [resume_append, resume_append, next_resume_open]
  show ((s.opened.resume [')', ')']).resume body).next = _
  rw [h, advance_resume]
  exact next_resume_close body s

end Scanner

namespace Engine

variable {ρ : Type} [Draws ρ] {e : Engine}

/-- What a directive is replaced by, and the text after it: `DNL` takes the rest of its line
along. -/
def carryOut (e : Engine) (body after : List Char) (s : State) (r : ρ) : Outcome ρ (List Char) :=
  let (name, args) := splitDirective body
  if name = "DNL" then ⟨.ok (Scanner.afterLine after), s, r⟩
  else (dispatch e name args s r).map fun text => text.toList ++ after

/-- An expansion depends on what is found only. -/
theorem expandFrom_congr {scanner scanner' : Scanner} (h : scanner.next = scanner'.next)
    (steps : Nat) (s : State) (r : ρ) :
    expandFrom e steps scanner s r = expandFrom e steps scanner' s r := by
  cases steps with
  | zero => rfl
  | succ steps => unfold expandFrom; rw [h]

/-- A directive that is found is carried out, and the expansion goes on in what it leaves. -/
theorem expandFrom_directive {scanner scanner' : Scanner} {body : List Char}
    (h : scanner.next = .directive body scanner') (steps : Nat) (s : State) (r : ρ) :
    expandFrom e (steps + 1) scanner s r = (carryOut e body scanner'.rest s r).bind
      fun rest s r => expandFrom e steps { scanner' with rest } s r := by
  rw [expandFrom, h]
  unfold carryOut
  dsimp only
  by_cases hname : (splitDirective body).1 = "DNL"
  · rw [if_pos hname, if_pos hname]
    rfl
  · rw [if_neg hname, if_neg hname]
    cases hresult : (dispatch e (splitDirective body).1 (splitDirective body).2 s r).result with
    | error error => simp [Outcome.bind, Outcome.map, hresult, Except.map]
    | ok text => simp [Outcome.bind, Outcome.map, hresult, Except.map, Scanner.resume]

/-- An expansion that ends within some steps is the same with one more. -/
theorem expandFrom_succ_of_ok : ∀ {steps : Nat} {scanner : Scanner} {s : State} {r : ρ}
    {text : List Char}, (e.expandFrom steps scanner s r).result = .ok text →
      e.expandFrom (steps + 1) scanner s r = e.expandFrom steps scanner s r := by
  intro steps
  induction steps with
  | zero =>
    intro scanner s r text h
    rw [expandFrom] at h
    exact absurd h (by simp)
  | succ steps ih =>
    intro scanner s r text h
    cases hnext : scanner.next with
    | finished text => rw [expandFrom, expandFrom, hnext]
    | unterminated text => rw [expandFrom, expandFrom, hnext]
    | directive body scanner' =>
      rw [expandFrom_directive hnext] at h
      rw [expandFrom_directive hnext, expandFrom_directive hnext]
      obtain ⟨rest, hcarried, hrest⟩ := Outcome.result_bind h
      rw [Outcome.bind_of_ok hcarried, Outcome.bind_of_ok hcarried]
      exact ih hrest

/-! ## Directives change the variables only -/

omit [Draws ρ] in
theorem storeResult_metadata (name reply : String) (o : Outcome ρ String) :
    (storeResult name reply o).state.metadata = o.state.metadata := by
  unfold storeResult
  cases o.result <;> rfl

/-- A call does not change the metadata. -/
theorem dispatch_metadata (name : String) (args : List String) (s : State) (r : ρ) :
    (e.dispatch name args s r).state.metadata = s.metadata := by
  fun_induction dispatch e name args s r
  case case3 ih | case5 ih | case7 ih | case9 ih => exact (storeResult_metadata _ _ _).trans ih
  all_goals rfl

/-- Nor does a directive. -/
theorem carryOut_metadata (body after : List Char) (s : State) (r : ρ) :
    (e.carryOut body after s r).state.metadata = s.metadata := by
  unfold carryOut
  dsimp only
  split
  · rfl
  · exact dispatch_metadata _ _ s r

/-- Nor do all directives of a text. -/
theorem expandFrom_metadata : ∀ (steps : Nat) (scanner : Scanner) (s : State) (r : ρ),
    (e.expandFrom steps scanner s r).state.metadata = s.metadata := by
  intro steps
  induction steps with
  | zero => intro scanner s r; rfl
  | succ steps ih =>
    intro scanner s r
    cases hnext : scanner.next with
    | finished text => rw [expandFrom, hnext]
    | unterminated text => rw [expandFrom, hnext]
    | directive body scanner' =>
      have hcarried := carryOut_metadata (e := e) body scanner'.rest s r
      rw [expandFrom_directive hnext]
      refine Outcome.state_bind (P := fun s' => s'.metadata = s.metadata) hcarried ?_
      intro rest
      exact (ih _ _ _).trans hcarried

/-- An expansion does not change the metadata. -/
theorem expand_metadata (text : String) (s : State) (r : ρ) :
    (e.expand text s r).state.metadata = s.metadata :=
  expandFrom_metadata _ _ s r

/-- An engine without macros. -/
def bare : Engine := {}

end Engine

/-- A source whose words are all zero. -/
def zeroSource : Stepping := { word := 0, step := 0 }

end Template

end ExamPaper
