import ExamPaper.Proofs.Template.Scanning

/-!
# What calls fail with

Readers and checkers of arguments fail with a few errors each, and an operation with those of the
readers that it uses. The lemmas are stated for any property that these errors have (`FailsOnly`), so
that whatever is to be said of the errors is said of the errors alone.

> An operation fails with errors about its arguments (`Operation.failsOnly_run`), and a call with
> these, or because of its name or its macro (`Engine.failsOnly_dispatch`). Neither reports a
> directive without an end or the limit of an expansion: these two are found by the expansion.
-/

namespace ExamPaper

namespace Template

/-- Every error that the result may be has the property. -/
def FailsOnly {α : Type} (P : TemplateError → Prop) (result : Except TemplateError α) : Prop :=
  ∀ e, result = .error e → P e

variable {α β : Type} {P : TemplateError → Prop}

theorem failsOnly_ok (a : α) : FailsOnly P (.ok a) := by
  intro e he
  exact absurd he (by simp)

theorem failsOnly_error {e : TemplateError} (h : P e) :
    FailsOnly P (.error e : Except TemplateError α) := by
  intro e' he
  obtain rfl := Except.error.inj he
  exact h

/-- A computation in two steps fails only with what one of them fails with. -/
theorem failsOnly_bind {result : Except TemplateError α} (h : FailsOnly P result)
    {f : α → Except TemplateError β} (hf : ∀ a, FailsOnly P (f a)) :
    FailsOnly P (result >>= f) := by
  cases result with
  | error e => exact failsOnly_error (h e rfl)
  | ok a => exact hf a

/-- A choice fails only with what both branches fail with. -/
theorem failsOnly_ite {p : Prop} [Decidable p] {first second : Except TemplateError α}
    (hfirst : FailsOnly P first) (hsecond : FailsOnly P second) :
    FailsOnly P (if p then first else second) := by
  split
  · exact hfirst
  · exact hsecond

/-- What is made of the value does not matter. -/
theorem FailsOnly.map {result : Except TemplateError α} (h : FailsOnly P result) (f : α → β) :
    FailsOnly P (result.map f) := by
  cases result with
  | error e => exact failsOnly_error (h e rfl)
  | ok a => exact failsOnly_ok (f a)

/-! ## Readers and checkers -/

section

variable {name value : String}

/-- Reading an integer fails with a bad number. -/
theorem failsOnly_readInt (h : P (.badNumber name value)) : FailsOnly P (readInt name value) := by
  unfold readInt
  split
  · exact failsOnly_ok _
  · exact failsOnly_error h

/-- Reading a count fails with a bad number. -/
theorem failsOnly_readCount (h : P (.badNumber name value)) :
    FailsOnly P (readCount name value) := by
  unfold readCount
  split
  · exact failsOnly_ok _
  · exact failsOnly_error h

/-- Reading a decimal number fails with a bad number. -/
theorem failsOnly_readFloat (h : P (.badNumber name value)) :
    FailsOnly P (readFloat name value) := by
  unfold readFloat
  split
  · exact failsOnly_ok _
  · exact failsOnly_error h

/-- Printing a number fails with too many decimals, and these are too many. -/
theorem failsOnly_printFixed {places : Nat}
    (h : maxPlaces < places → P (.tooManyPlaces name places)) (x : Float) :
    FailsOnly P (printFixed name places x) := by
  unfold printFixed
  split
  · exact failsOnly_error (h ‹_›)
  · exact failsOnly_ok _

end

/-- Reading a range of integers fails with a bad number or a wrong number of arguments. -/
theorem IntRange.failsOnly_ofArgs (hnumber : ∀ value, P (.badNumber "INT" value))
    (harity : ∀ got, P (.arity "INT" "2 or 3" got)) (args : List String) :
    FailsOnly P (IntRange.ofArgs args) := by
  unfold IntRange.ofArgs
  split
  · exact failsOnly_bind (failsOnly_readInt (hnumber _)) fun _ =>
      failsOnly_bind (failsOnly_readInt (hnumber _)) fun _ => failsOnly_ok _
  · exact failsOnly_bind (failsOnly_readInt (hnumber _)) fun _ =>
      failsOnly_bind (failsOnly_readInt (hnumber _)) fun _ =>
        failsOnly_bind (failsOnly_readInt (hnumber _)) fun _ => failsOnly_ok _
  · exact failsOnly_error (harity _)

/-- Counting the steps of a range fails with a bad number or with none to choose from. -/
theorem IntRange.failsOnly_steps (hnumber : ∀ value, P (.badNumber "INT" value))
    (hchoice : P (.emptyChoice "INT")) (range : IntRange) : FailsOnly P range.steps := by
  unfold IntRange.steps
  exact failsOnly_ite (failsOnly_error (hnumber _)) <| failsOnly_ite (failsOnly_error hchoice) <|
    failsOnly_ite (failsOnly_ok _) (failsOnly_error (hnumber _))

/-- Reading a range of decimal numbers fails with a bad number or a wrong number of arguments. -/
theorem FloatRange.failsOnly_ofArgs (hnumber : ∀ value, P (.badNumber "FLOAT" value))
    (harity : ∀ got, P (.arity "FLOAT" "2 or 3" got)) (args : List String) :
    FailsOnly P (FloatRange.ofArgs args) := by
  unfold FloatRange.ofArgs
  split
  · exact failsOnly_bind (failsOnly_readFloat (hnumber _)) fun _ =>
      failsOnly_bind (failsOnly_readFloat (hnumber _)) fun _ => failsOnly_ok _
  · exact failsOnly_bind (failsOnly_readFloat (hnumber _)) fun _ =>
      failsOnly_bind (failsOnly_readFloat (hnumber _)) fun _ =>
        failsOnly_bind (failsOnly_readCount (hnumber _)) fun _ => failsOnly_ok _
  · exact failsOnly_error (harity _)

/-- Checking such a range fails with a bad number or with none to choose from. -/
theorem FloatRange.failsOnly_check (hnumber : ∀ value, P (.badNumber "FLOAT" value))
    (hchoice : P (.emptyChoice "FLOAT")) (range : FloatRange) : FailsOnly P range.check := by
  unfold FloatRange.check
  exact failsOnly_ite (failsOnly_error (hnumber _)) <|
    failsOnly_ite (failsOnly_error (hnumber _)) <| failsOnly_ite (failsOnly_error hchoice) <|
      failsOnly_ite (failsOnly_error (hnumber _)) (failsOnly_ok _)

/-- Reading the steps of a range fails with a bad number or with none to choose from. -/
theorem FloatSteps.failsOnly_ofTexts (hnumber : ∀ value, P (.badNumber "FLOATRANGE" value))
    (hchoice : P (.emptyChoice "FLOATRANGE")) (minText maxText stepText : String) (places : Nat) :
    FailsOnly P (FloatSteps.ofTexts minText maxText stepText places) := by
  unfold FloatSteps.ofTexts
  refine failsOnly_bind (failsOnly_readFloat (hnumber _)) fun _ =>
    failsOnly_bind (failsOnly_readFloat (hnumber _)) fun _ =>
      failsOnly_bind (failsOnly_readFloat (hnumber _)) fun _ => ?_
  exact failsOnly_ite (failsOnly_error (hnumber _)) <|
    failsOnly_ite (failsOnly_error (hnumber _)) <| failsOnly_ite (failsOnly_error (hnumber _)) <|
      failsOnly_ite (failsOnly_error hchoice) (failsOnly_ok _)

/-- Reading them from arguments may fail with a wrong number of these, too. -/
theorem FloatSteps.failsOnly_ofArgs (hnumber : ∀ value, P (.badNumber "FLOATRANGE" value))
    (hchoice : P (.emptyChoice "FLOATRANGE"))
    (harity : ∀ got, P (.arity "FLOATRANGE" "3 or 4" got)) (args : List String) :
    FailsOnly P (FloatSteps.ofArgs args) := by
  unfold FloatSteps.ofArgs
  split
  · exact FloatSteps.failsOnly_ofTexts hnumber hchoice _ _ _ _
  · exact failsOnly_bind (failsOnly_readCount (hnumber _)) fun _ =>
      FloatSteps.failsOnly_ofTexts hnumber hchoice _ _ _ _
  · exact failsOnly_error (harity _)

/-- Reading how often to repeat fails with a bad number or a wrong number of arguments. -/
theorem failsOnly_repeated (hnumber : ∀ value, P (.badNumber "FOR" value))
    (harity : ∀ got, P (.arity "FOR" "2" got)) (args : List String) :
    FailsOnly P (repeated args) := by
  unfold repeated
  split
  · refine failsOnly_bind (failsOnly_readInt (hnumber _)) fun n => ?_
    exact failsOnly_ite (failsOnly_ok _) <|
      failsOnly_ite (failsOnly_ok _) (failsOnly_error (hnumber _))
  · exact failsOnly_error (harity _)

/-- Counting what is excepted can overflow besides. -/
theorem failsOnly_choicesExcept (hnumber : ∀ value, P (.badNumber "OPEXCEPT" value))
    (hchoice : P (.emptyChoice "OPEXCEPT")) (hoverflow : P (.overflow "OPEXCEPT"))
    (harity : ∀ expected got, P (.arity "OPEXCEPT" expected got)) (args : List String) :
    FailsOnly P (choicesExcept args) := by
  unfold choicesExcept
  split
  · exact failsOnly_error (harity _ _)
  · refine failsOnly_bind (failsOnly_readCount (hnumber _)) fun count => ?_
    dsimp only
    refine failsOnly_ite
      (failsOnly_ite (failsOnly_error (harity _ _)) (failsOnly_error hoverflow)) ?_
    split
    · exact failsOnly_error hchoice
    · exact failsOnly_ok _

/-- Choosing fails if there is nothing to choose from. -/
theorem failsOnly_pick {ρ : Type} [Draws ρ] {name : String} (h : P (.emptyChoice name))
    (values : List String) (r : ρ) : FailsOnly P (pick name values r).1 := by
  unfold pick
  split
  · exact failsOnly_error h
  · exact failsOnly_ok _

/-! ## Operations and calls -/

/-- A property of all errors that operations find in their arguments. -/
structure OfArguments (P : TemplateError → Prop) : Prop where
  arity : ∀ name expected got, P (.arity name expected got)
  badNumber : ∀ name value, P (.badNumber name value)
  emptyChoice : ∀ name, P (.emptyChoice name)
  calculation : ∀ e, P (.calculation e)
  tooManyPlaces : ∀ name places, maxPlaces < places → P (.tooManyPlaces name places)
  overflow : ∀ name, P (.overflow name)

section

variable {ρ : Type} [Draws ρ]

/-- An operation fails with errors about its arguments. -/
theorem Operation.failsOnly_run (h : OfArguments P) (op : Operation) (today : String) (s : State)
    (args : List String) (r : ρ) : FailsOnly P (op.run today s args r).1 := by
  unfold run
  cases op with
  | int =>
    dsimp only
    cases hrange : IntRange.ofArgs args with
    | error e =>
      exact failsOnly_error (IntRange.failsOnly_ofArgs (h.badNumber _) (h.arity _ _) args e hrange)
    | ok range =>
      dsimp only
      cases hsteps : range.steps with
      | error e =>
        exact failsOnly_error
          (IntRange.failsOnly_steps (h.badNumber _) (h.emptyChoice _) range e hsteps)
      | ok steps => exact failsOnly_ok _
  | float =>
    dsimp only
    cases hrange : FloatRange.ofArgs args with
    | error e =>
      exact failsOnly_error
        (FloatRange.failsOnly_ofArgs (h.badNumber _) (h.arity _ _) args e hrange)
    | ok range =>
      dsimp only
      cases hcheck : range.check with
      | error e =>
        exact failsOnly_error
          (FloatRange.failsOnly_check (h.badNumber _) (h.emptyChoice _) range e hcheck)
      | ok _ => exact failsOnly_printFixed (h.tooManyPlaces _ _) _
  | floatRange =>
    dsimp only
    cases hsteps : FloatSteps.ofArgs args with
    | error e =>
      exact failsOnly_error (FloatSteps.failsOnly_ofArgs (h.badNumber _) (h.emptyChoice _)
        (h.arity _ _) args e hsteps)
    | ok steps => exact failsOnly_printFixed (h.tooManyPlaces _ _) _
  | choice => exact failsOnly_pick (h.emptyChoice _) args r
  | choiceExcept =>
    dsimp only
    cases hvalues : choicesExcept args with
    | error e =>
      exact failsOnly_error (failsOnly_choicesExcept (h.badNumber _) (h.emptyChoice _)
        (h.overflow _) (h.arity _) args e hvalues)
    | ok values => exact failsOnly_pick (h.emptyChoice _) values r
  | repetition => exact failsOnly_repeated (h.badNumber _) (h.arity _ _) args
  | cases =>
    dsimp only
    split
    · exact failsOnly_error (h.arity _ _ _)
    · exact failsOnly_ok _
  | identity =>
    dsimp only
    split
    · exact failsOnly_ok _
    · exact failsOnly_error (h.arity _ _ _)
  | calculation =>
    dsimp only
    split
    · exact failsOnly_error (h.calculation _)
    · exact failsOnly_ok _
  | quote =>
    dsimp only
    split
    · exact failsOnly_ok _
    · exact failsOnly_error (h.arity _ _ _)
  | date | quoteComma => exact failsOnly_ok _

namespace Engine

omit [Draws ρ] in
theorem storeResult_result (name reply : String) (o : Outcome ρ String) :
    (storeResult name reply o).result = o.result.map fun _ => reply := by
  unfold storeResult
  cases o.result <;> rfl

/-- A call fails with errors about its arguments, its name or its macro. -/
theorem failsOnly_dispatch {e : Engine} (h : OfArguments P) (hunknown : ∀ name, P (.unknown name))
    (hdefinition : ∀ e, P (.definition e)) (name : String) (args : List String) (s : State) (r : ρ) :
    FailsOnly P (e.dispatch name args s r).result := by
  fun_induction dispatch e name args s r
  case case1 => exact failsOnly_ok _
  case case2 args _ _ m _ =>
    cases m.apply args with
    | ok value => exact failsOnly_ok _
    | error error => exact failsOnly_error (hdefinition error)
  case case3 ih | case5 ih | case7 ih | case9 ih =>
    rw [storeResult_result]
    exact ih.map _
  case case11 => exact failsOnly_error (hunknown _)
  case case12 args op _ result r' hrun _ _ =>
    have hresult : (op.run e.today s _ _).1 = result := congrArg Prod.fst hrun
    exact hresult ▸ Operation.failsOnly_run h op _ _ _ _
  all_goals exact failsOnly_error (h.arity _ _ _)

/-- A call never fails with an error that the expansion reports itself. -/
theorem dispatch_ne {e : Engine} (name : String) (args : List String) (s : State) (r : ρ) :
    (∀ limit, (e.dispatch name args s r).result ≠ .error (.expansionLimit limit)) ∧
    ∀ snippet, (e.dispatch name args s r).result ≠ .error (.unterminated snippet) := by
  have hfails : FailsOnly (fun error => (∀ limit, error ≠ .expansionLimit limit) ∧
      ∀ snippet, error ≠ .unterminated snippet) (e.dispatch name args s r).result :=
    failsOnly_dispatch ⟨fun _ _ _ => ⟨nofun, nofun⟩, fun _ _ => ⟨nofun, nofun⟩,
      fun _ => ⟨nofun, nofun⟩, fun _ => ⟨nofun, nofun⟩, fun _ _ _ => ⟨nofun, nofun⟩,
      fun _ => ⟨nofun, nofun⟩⟩ (fun _ => ⟨nofun, nofun⟩) (fun _ => ⟨nofun, nofun⟩) name args s r
  exact ⟨fun limit h => (hfails _ h).1 limit rfl, fun snippet h => (hfails _ h).2 snippet rfl⟩

end Engine

end

end Template

end ExamPaper
