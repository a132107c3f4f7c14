import ExamPaper.Proofs.Template.Plain
import ExamPaper.Proofs.Template.Scanning

/-!
# Templates as trees

A template whose texts have no special characters is a tree: text and directives in turn, and the
arguments of a directive are templates again. A tree says what it stands for without any scanner.
`evaluate` works out the arguments of a directive from the left, and then calls what they name.

> As long as nothing that is called gives special characters, expanding a printed tree is evaluating
> the tree: the same text or error, variables and random source (`expand_print`).

The engine comes to an argument in the middle of its scanner, with markers open and a text to go on
with. `Tree.expandFrom_print` says for any such place that the engine gets past a printed tree with
the value of the tree read on, in one step for each directive.
-/

namespace ExamPaper

namespace Template

/-! ## Trees -/

/-- A text that means nothing to the engine. -/
structure PlainText where
  chars : List Char
  plain : Plain chars

mutual

/-- A template: texts and directives one after another. -/
inductive Tree where
  | empty
  | text (cs : PlainText) (rest : Tree)
  /-- A directive, whose name is the first of its arguments. -/
  | directive (name : Tree) (args : Trees) (rest : Tree)

/-- Arguments of a directive. -/
inductive Trees where
  | nil
  | cons (arg : Tree) (args : Trees)

end

mutual

/-- The text of a template. -/
def Tree.print : Tree → List Char
  | .empty => []
  | .text cs rest => cs.chars ++ rest.print
  | .directive name args rest => ['(', '('] ++ name.print ++ args.print ++ [')', ')'] ++ rest.print

/-- The text of arguments, with a comma before each. -/
def Trees.print : Trees → List Char
  | .nil => []
  | .cons arg args => ',' :: arg.print ++ args.print

end

mutual

/-- The number of directives in a template. -/
def Tree.directives : Tree → Nat
  | .empty => 0
  | .text _ rest => rest.directives
  | .directive name args rest => name.directives + args.directives + 1 + rest.directives

/-- The number of directives in arguments. -/
def Trees.directives : Trees → Nat
  | .nil => 0
  | .cons arg args => arg.directives + args.directives

end

/-! ## Evaluation -/

/-- A directive carried out: what it was called with, and what came of it. -/
structure Call where
  name : String
  args : List String
  result : Except TemplateError String

/-- The calls made in an evaluation, and what it leaves behind. -/
structure Evaluation (ρ α : Type) where
  calls : List Call
  outcome : Outcome ρ α

namespace Evaluation

variable {ρ α β : Type}

/-- A value found without a call. -/
def pure (a : α) (s : State) (r : ρ) : Evaluation ρ α := ⟨[], ⟨.ok a, s, r⟩⟩

/-- Goes on with the value, the state and the random source, unless there is an error. -/
def bind (v : Evaluation ρ α) (f : α → State → ρ → Evaluation ρ β) : Evaluation ρ β :=
  match v.outcome.result with
  | .error e => ⟨v.calls, ⟨.error e, v.outcome.state, v.outcome.rng⟩⟩
  | .ok a =>
    let w := f a v.outcome.state v.outcome.rng
    ⟨v.calls ++ w.calls, w.outcome⟩

end Evaluation

section
variable {ρ : Type} [Draws ρ]

/-- Applies a name to arguments. -/
def Engine.call (e : Engine) (name : List Char) (args : List (List Char)) (s : State) (r : ρ) :
    Evaluation ρ (List Char) :=
  let name := String.ofList name
  let args := args.map String.ofList
  let o := e.dispatch name args s r
  ⟨[⟨name, args, o.result⟩], o.map String.toList⟩

mutual

/-- The text that a template stands for. -/
def Tree.evaluate (e : Engine) : Tree → State → ρ → Evaluation ρ (List Char)
  | .empty, s, r => .pure [] s r
  | .text cs rest, s, r =>
    (rest.evaluate e s r).bind fun tail s r => .pure (cs.chars ++ tail) s r
  | .directive name args rest, s, r =>
    (name.evaluate e s r).bind fun name s r =>
    (args.evaluate e s r).bind fun args s r =>
    (e.call name args s r).bind fun value s r =>
    (rest.evaluate e s r).bind fun tail s r => .pure (value ++ tail) s r

/-- The texts that arguments stand for, from the left. -/
def Trees.evaluate (e : Engine) : Trees → State → ρ → Evaluation ρ (List (List Char))
  | .nil, s, r => .pure [] s r
  | .cons arg args, s, r =>
    (arg.evaluate e s r).bind fun arg s r =>
    (args.evaluate e s r).bind fun args s r => .pure (arg :: args) s r

end

end

/-! ## Calls that give plain text -/

/-- A call that removes no line, and gives no special characters. -/
structure Call.Tame (c : Call) : Prop where
  not_line : c.name ≠ "DNL"
  plain : ∀ text, c.result = .ok text → Plain text.toList

instance (c : Call) : Decidable c.Tame :=
  match h : c.result with
  | .error _ => decidable_of_iff (c.name ≠ "DNL")
    ⟨fun hname => ⟨hname, fun _ htext => absurd (h.symm.trans htext) (by simp)⟩, Call.Tame.not_line⟩
  | .ok text => decidable_of_iff (c.name ≠ "DNL" ∧ Plain text.toList)
    ⟨fun ⟨hname, hplain⟩ => ⟨hname, fun _ htext => Except.ok.inj (h.symm.trans htext) ▸ hplain⟩,
      fun htame => ⟨htame.not_line, htame.plain text h⟩⟩

namespace Evaluation

variable {ρ α β : Type}

/-- All calls of the evaluation are tame. -/
def Tame (v : Evaluation ρ α) : Prop := ∀ c ∈ v.calls, c.Tame

instance (v : Evaluation ρ α) : Decidable v.Tame :=
  inferInstanceAs (Decidable (∀ c ∈ v.calls, c.Tame))

theorem outcome_bind (v : Evaluation ρ α) (f : α → State → ρ → Evaluation ρ β) :
    (v.bind f).outcome = v.outcome.bind fun a s r => (f a s r).outcome := by
  unfold bind Outcome.bind
  cases v.outcome.result with
  | error e => rfl
  | ok a => rfl

/-- What goes on is tame from where it starts. -/
theorem Tame.of_bind {v : Evaluation ρ α} {f : α → State → ρ → Evaluation ρ β}
    (h : (v.bind f).Tame) :
    v.Tame ∧ ∀ a, v.outcome.result = .ok a → (f a v.outcome.state v.outcome.rng).Tame := by
  unfold bind at h
  cases hv : v.outcome.result with
  | error e =>
    rw [hv] at h
    exact ⟨h, fun a ha => absurd ha (by simp)⟩
  | ok a =>
    rw [hv] at h
    obtain ⟨hleft, hright⟩ := List.forall_mem_append.mp h
    exact ⟨hleft, fun b hb => Except.ok.inj hb ▸ hright⟩

/-- A value found in two steps is found in the second from a value of the first. -/
theorem result_bind {v : Evaluation ρ α} {f : α → State → ρ → Evaluation ρ β} {b : β}
    (h : (v.bind f).outcome.result = .ok b) :
    ∃ a, v.outcome.result = .ok a ∧
      (f a v.outcome.state v.outcome.rng).outcome.result = .ok b := by
  rw [outcome_bind] at h
  exact Outcome.result_bind h

end Evaluation

variable {ρ : Type} [Draws ρ] {e : Engine}

/-- The value of a call that is tame is plain. -/
theorem plain_call {name : List Char} {args : List (List Char)} {s : State} {r : ρ}
    {value : List Char} (htame : (e.call name args s r).Tame)
    (hvalue : (e.call name args s r).outcome.result = .ok value) : Plain value := by
  have hcall := (htame _ List.mem_cons_self).plain
  unfold Engine.call Outcome.map at hvalue
  dsimp only at hcall hvalue
  generalize (e.dispatch _ _ s r).result = result at hcall hvalue
  cases result with
  | error error => exact absurd hvalue (by simp [Except.map])
  | ok text =>
    obtain rfl := Except.ok.inj hvalue
    exact hcall text rfl

mutual

/-- What a tree stands for is plain, if its calls are tame. -/
theorem Tree.plain_evaluate : ∀ (t : Tree) {s : State} {r : ρ} {cs : List Char},
    (t.evaluate e s r).Tame → (t.evaluate e s r).outcome.result = .ok cs → Plain cs
  | .empty, s, r, cs, _, hcs => by
    obtain rfl := Except.ok.inj hcs
    exact fun c hc => absurd hc List.not_mem_nil
  | .text text rest, s, r, cs, htame, hcs => by
    rw [Tree.evaluate] at htame hcs
    obtain ⟨hrest, -⟩ := htame.of_bind
    obtain ⟨tail, htail, hcs⟩ := Evaluation.result_bind hcs
    obtain rfl := Except.ok.inj hcs
    exact text.plain.append (rest.plain_evaluate hrest htail)
  | .directive name args rest, s, r, cs, htame, hcs => by
    rw [Tree.evaluate] at htame hcs
    obtain ⟨_, hname, hcs⟩ := Evaluation.result_bind hcs
    replace htame := htame.of_bind.2 _ hname
    obtain ⟨_, hargs, hcs⟩ := Evaluation.result_bind hcs
    replace htame := htame.of_bind.2 _ hargs
    obtain ⟨value, hvalue, hcs⟩ := Evaluation.result_bind hcs
    obtain ⟨hcall, htame⟩ := htame.of_bind
    obtain ⟨tail, htail, hcs⟩ := Evaluation.result_bind hcs
    obtain rfl := Except.ok.inj hcs
    exact (plain_call hcall hvalue).append
      (rest.plain_evaluate (htame _ hvalue).of_bind.1 htail)

/-- The values of trees that are tame are plain. -/
theorem Trees.plain_evaluate : ∀ (ts : Trees) {s : State} {r : ρ} {texts : List (List Char)},
    (ts.evaluate e s r).Tame → (ts.evaluate e s r).outcome.result = .ok texts →
      ∀ text ∈ texts, Plain text
  | .nil, s, r, texts, _, htexts => by
    obtain rfl := Except.ok.inj htexts
    exact fun text htext => absurd htext List.not_mem_nil
  | .cons arg args, s, r, texts, htame, htexts => by
    rw [Trees.evaluate] at htame htexts
    obtain ⟨harg, hargs⟩ := htame.of_bind
    obtain ⟨text, htext, htexts⟩ := Evaluation.result_bind htexts
    obtain ⟨rest, hrest, htexts⟩ := Evaluation.result_bind htexts
    obtain rfl := Except.ok.inj htexts
    exact List.forall_mem_cons.mpr ⟨arg.plain_evaluate harg htext,
      args.plain_evaluate (hargs _ htext).of_bind.1 hrest⟩

end

/-! ## The engine gets past a printed tree -/

/-- One directive of plain arguments is one call. -/
theorem expandFrom_call {name : List Char} {args : List (List Char)} (hname : Plain name)
    (hargs : ∀ arg ∈ args, Plain arg) {s : State} {r : ρ}
    (htame : (e.call name args s r).Tame) (scanner : Scanner) (n : Nat) :
    e.expandFrom (n + 1) ((scanner.opened.advance (name ++ commaText args)).resume [')', ')']) s r =
      (e.call name args s r).outcome.bind
        fun value s r => e.expandFrom n (scanner.advance value) s r := by
  have hcall := htame _ List.mem_cons_self
  rw [Engine.expandFrom_directive (Scanner.next_resume_close _ _),
    carryOut_plain hname hcall.not_line hargs]
  unfold Engine.call
  rw [Outcome.bind_map, Outcome.bind_map]
  refine Outcome.bind_congr fun text htext => ?_
  exact Engine.expandFrom_congr (Scanner.next_resume (hcall.plain text htext).not_marker scanner) ..

mutual

/-- Wherever a printed tree is left to read, the engine gets past it with its value read on. The
scanner is arbitrary, since the arguments of a directive are met with its marker open. -/
theorem Tree.expandFrom_print : ∀ (t : Tree) {s : State} {r : ρ}, (t.evaluate e s r).Tame →
    ∀ (scanner : Scanner) (n : Nat),
      e.expandFrom (n + t.directives) (scanner.resume t.print) s r =
        (t.evaluate e s r).outcome.bind
          fun cs s r => e.expandFrom n (scanner.advance cs) s r
  | .empty, s, r, _, scanner, n => by
    show e.expandFrom n scanner s r = e.expandFrom n (scanner.advance []) s r
    rw [Scanner.advance_nil]
  | .text text rest, s, r, htame, scanner, n => by
    rw [Tree.evaluate] at htame
    rw [Tree.evaluate, Evaluation.outcome_bind, Outcome.bind_assoc, Tree.print, Tree.directives,
      Scanner.resume_append,
      Engine.expandFrom_congr (Scanner.next_resume text.plain.not_marker _),
      Scanner.advance_resume, rest.expandFrom_print htame.of_bind.1]
    refine Outcome.bind_congr fun tail _ => ?_
    rw [← Scanner.advance_append]
    rfl
  | .directive name args rest, s, r, htame, scanner, n => by
    rw [Tree.evaluate] at htame
    have hsteps : n + (Tree.directive name args rest).directives =
        n + rest.directives + 1 + args.directives + name.directives := by
      rw [Tree.directives]
      omega
    -- behind its marker the directive is read into a layer of its own
    have hopen : (scanner.resume (Tree.directive name args rest).print).next =
        ((((scanner.resume rest.print).opened.resume [')', ')']).resume args.print).resume
          name.print).next := by
      rw [Tree.print, Scanner.resume_append, Scanner.resume_append, Scanner.resume_append,
        Scanner.resume_append, Scanner.next_resume_open]
      rfl
    rw [Tree.evaluate, Evaluation.outcome_bind, Outcome.bind_assoc, hsteps,
      Engine.expandFrom_congr hopen, name.expandFrom_print htame.of_bind.1]
    refine Outcome.bind_congr fun nameText hname => ?_
    -- the value of the name is in that layer, and those of the arguments follow
    have hnamePlain : Plain nameText := name.plain_evaluate htame.of_bind.1 hname
    replace htame := htame.of_bind.2 _ hname
    rw [Evaluation.outcome_bind, Outcome.bind_assoc, Scanner.advance_resume,
      Scanner.advance_resume, args.expandFrom_print htame.of_bind.1]
    refine Outcome.bind_congr fun argTexts hargs => ?_
    -- the closing marker makes the layer a directive, which takes the one step of its own
    have hargsPlain : ∀ text ∈ argTexts, Plain text := args.plain_evaluate htame.of_bind.1 hargs
    replace htame := htame.of_bind.2 _ hargs
    rw [Evaluation.outcome_bind, Outcome.bind_assoc, Scanner.advance_resume,
      ← Scanner.advance_append, expandFrom_call hnamePlain hargsPlain htame.of_bind.1]
    refine Outcome.bind_congr fun value hvalue => ?_
    -- its value is plain, so it is read on with the text before the directive
    replace htame := htame.of_bind.2 _ hvalue
    rw [Evaluation.outcome_bind, Outcome.bind_assoc, Scanner.advance_resume,
      rest.expandFrom_print htame.of_bind.1]
    refine Outcome.bind_congr fun tail _ => ?_
    rw [← Scanner.advance_append]
    rfl

/-- Printed trees are read as they are evaluated, one after the other. -/
theorem Trees.expandFrom_print : ∀ (ts : Trees) {s : State} {r : ρ}, (ts.evaluate e s r).Tame →
    ∀ (scanner : Scanner) (n : Nat),
      e.expandFrom (n + ts.directives) (scanner.resume ts.print) s r =
        (ts.evaluate e s r).outcome.bind
          fun texts s r => e.expandFrom n (scanner.advance (commaText texts)) s r
  | .nil, s, r, _, scanner, n => by
    show e.expandFrom n scanner s r = e.expandFrom n (scanner.advance []) s r
    rw [Scanner.advance_nil]
  | .cons arg args, s, r, htame, scanner, n => by
    rw [Trees.evaluate] at htame
    have hsteps : n + (Trees.cons arg args).directives =
        n + args.directives + arg.directives := by
      rw [Trees.directives]
      omega
    have hcomma : (scanner.resume (Trees.cons arg args).print).next =
        (((scanner.advance [',']).resume args.print).resume arg.print).next := by
      rw [Trees.print, ← Scanner.advance_resume, ← Scanner.advance_resume, Scanner.resume_append]
      have hplain : ∀ c ∈ [','], c ≠ '\\' ∧ c ≠ '(' ∧ c ≠ ')' :=
        List.forall_mem_singleton.mpr (by decide)
      exact Scanner.next_resume hplain ((scanner.resume args.print).resume arg.print)
    rw [Trees.evaluate, Evaluation.outcome_bind, Outcome.bind_assoc, hsteps,
      Engine.expandFrom_congr hcomma, arg.expandFrom_print htame.of_bind.1]
    refine Outcome.bind_congr fun text htext => ?_
    replace htame := htame.of_bind.2 _ htext
    rw [Evaluation.outcome_bind, Outcome.bind_assoc, Scanner.advance_resume,
      args.expandFrom_print htame.of_bind.1]
    refine Outcome.bind_congr fun texts _ => ?_
    rw [← Scanner.advance_append, ← Scanner.advance_append]
    rfl

end

/-- **Templates as trees.** Take a template of plain texts and directives, nested in any way, with
fewer directives than the engine has steps. If no call made in evaluating it is `DNL` or gives
special characters, then expanding the printed template is evaluating it: the same text, or the same
error where a call fails, and the same state and random source. -/
theorem expand_print {t : Tree} {s : State} {r : ρ} (hsteps : t.directives < e.maxSteps)
    (htame : (t.evaluate e s r).Tame) :
    e.expand (String.ofList t.print) s r = (t.evaluate e s r).outcome.map String.ofList := by
  -- the step that is left finds that there is nothing more to expand
  obtain ⟨n, hn⟩ : ∃ n, e.maxSteps = n + 1 + t.directives :=
    ⟨e.maxSteps - t.directives - 1, by omega⟩
  have hstart : Scanner.ofText t.print = (Scanner.ofText []).resume t.print := by
    unfold Scanner.ofText Scanner.resume
    rw [List.append_nil]
  have hrun : e.expandFrom e.maxSteps (.ofText (String.ofList t.print).toList) s r =
      (t.evaluate e s r).outcome := by
    rw [String.toList_ofList, hn, hstart, t.expandFrom_print htame]
    have hplain : ∀ cs, (t.evaluate e s r).outcome.result = .ok cs → Plain cs :=
      fun cs hcs => t.plain_evaluate htame hcs
    generalize (t.evaluate e s r).outcome = o at hplain ⊢
    obtain ⟨result, s', r'⟩ := o
    cases result with
    | error error => rfl
    | ok cs =>
      have hnext : ((Scanner.ofText []).advance cs).next = .finished cs := by
        show Finding.finished (cs.reverse ++ []).reverse = _
        rw [List.append_nil, List.reverse_reverse]
      show e.expandFrom (n + 1) ((Scanner.ofText []).advance cs) s' r' = _
      rw [Engine.expandFrom, hnext]
      dsimp only
      rw [(hplain cs rfl).unescape_eq]
  unfold Engine.expand
  rw [hrun]
  rfl

/-- A template without directives. -/
def plainTree (text : String) (h : Plain text.toList) : Tree := .text ⟨text.toList, h⟩ .empty

/-- The template `a ((((ID,ID)),((OP,b,c)))).`, in which the name of a directive is a directive. -/
def nestedTree : Tree :=
  let identity := plainTree "ID" (by decide)
  let choice := Tree.directive (plainTree "OP" (by decide))
    (.cons (plainTree "b" (by decide)) (.cons (plainTree "c" (by decide)) .nil)) .empty
  .text ⟨"a ".toList, by decide⟩
    (.directive (.directive identity (.cons identity .nil) .empty) (.cons choice .nil)
      (plainTree "." (by decide)))

theorem expand_print_nestedTree :
    nestedTree.directives < Engine.bare.maxSteps ∧
    (nestedTree.evaluate Engine.bare {} zeroSource).Tame ∧
    Engine.bare.expand (String.ofList nestedTree.print) {} zeroSource =
      (nestedTree.evaluate Engine.bare {} zeroSource).outcome.map String.ofList ∧
    (Engine.bare.expand (String.ofList nestedTree.print) {} zeroSource).result = .ok "a b." := by
  have hsteps : nestedTree.directives < Engine.bare.maxSteps := by decide
  have htame : (nestedTree.evaluate Engine.bare {} zeroSource).Tame := by decide +kernel
  exact ⟨hsteps, htame, expand_print hsteps htame, rfl⟩

end Template

end ExamPaper
