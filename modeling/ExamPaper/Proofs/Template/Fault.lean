import ExamPaper.Proofs.Template.Failing

/-!
# Faults

A run that cannot go on is broken off with a `Fault`. Most errors of a template are found before
anything impossible is tried; two stand for a fault (`fault?`): a number of decimals beyond the
limit, and a number of arguments that no word can hold.

> Of the errors that operations find in their arguments, the one about decimals is found only if they
> are beyond the limit (`ofArguments_spares`). Most operations fail with no error that stands for a
> fault.
-/

namespace ExamPaper

namespace Template

/-- Why a run cannot go on. -/
inductive Fault where
  /-- A slice of a text that is out of range or cuts a character. -/
  | slice
  /-- A number that does not fit its type. -/
  | overflow
  /-- A draw from an empty range. -/
  | emptyRange
  /-- A position beyond the end of a list. -/
  | index
  /-- More decimals than a number can be printed with. -/
  | precision (places : Nat)
  deriving DecidableEq, Repr

/-- What a step gives if it is possible. -/
abbrev Checked (α : Type) := Except Fault α

/-- The fault that an error stands for. -/
def fault? : TemplateError → Option Fault
  | .tooManyPlaces _ places => some (.precision places)
  | .overflow _ => some .overflow
  | _ => none

/-- The errors that stand for a fault are those at which a run is broken off. -/
theorem isSome_fault? (e : TemplateError) : (fault? e).isSome = e.breaksOff := by
  cases e <;> rfl

/-- The outcome of a run, unless it ended with an error that stands for a fault. -/
def settle {α β : Type} (result : Except TemplateError α) (outcome : β) : Checked β :=
  match result with
  | .ok _ => .ok outcome
  | .error e => match fault? e with
    | none => .ok outcome
    | some fault => .error fault

/-- An outcome that depends on another one. -/
theorem map_settle {α β γ : Type} (result : Except TemplateError α) (f : β → γ) (outcome : β) :
    (settle result outcome).map f = settle result (f outcome) := by
  cases result with
  | ok a => rfl
  | error e =>
    unfold settle
    dsimp only
    cases fault? e <;> rfl

/-- What the value is does not matter. -/
theorem settle_map {α β γ : Type} (result : Except TemplateError α) (f : α → β) (outcome : γ) :
    settle (result.map f) outcome = settle result outcome := by
  cases result <;> rfl

/-! ## Errors that are no faults -/

/-- The error stands for no fault. -/
def TemplateError.NoFault (e : TemplateError) : Prop := fault? e = none

/-- The result is no error that stands for a fault. -/
def Faultless {α : Type} (result : Except TemplateError α) : Prop :=
  ∀ e, result = .error e → fault? e = none

section

variable {α : Type}

/-- A result that stands for no fault settles for the outcome. -/
theorem settle_of_faultless {β : Type} {result : Except TemplateError α} (h : Faultless result)
    (outcome : β) : settle result outcome = .ok outcome := by
  cases result with
  | ok a => rfl
  | error e => unfold settle; dsimp only; rw [h e rfl]

theorem faultless_ok (a : α) : Faultless (.ok a) := failsOnly_ok a

theorem faultless_error {e : TemplateError} (h : fault? e = none) :
    Faultless (.error e : Except TemplateError α) :=
  failsOnly_error (P := TemplateError.NoFault) h

end

/-- An error about decimals is about more than a number can be printed with. -/
def Sparing {α : Type} (result : Except TemplateError α) : Prop :=
  ∀ name places, result = .error (.tooManyPlaces name places) → maxPlaces < places

/-- The error is not about decimals that a number can be printed with. -/
def TemplateError.Spares (e : TemplateError) : Prop :=
  ∀ name places, e = .tooManyPlaces name places → maxPlaces < places

/-- A result whose errors are not about decimals that can be printed is sparing. -/
theorem FailsOnly.sparing {α : Type} {result : Except TemplateError α}
    (h : FailsOnly TemplateError.Spares result) : Sparing result :=
  fun name places he => h _ he name places rfl

/-- Of the errors that operations find in their arguments, one is about decimals. -/
theorem ofArguments_spares : OfArguments TemplateError.Spares where
  arity _ _ _ := nofun
  badNumber _ _ := nofun
  emptyChoice _ := nofun
  calculation _ := nofun
  tooManyPlaces _ _ h := fun _ _ he => (TemplateError.tooManyPlaces.inj he).2 ▸ h
  overflow _ := nofun

theorem faultless_readCount (name value : String) : Faultless (readCount name value) :=
  failsOnly_readCount (P := TemplateError.NoFault) rfl

theorem IntRange.faultless_ofArgs (args : List String) : Faultless (IntRange.ofArgs args) :=
  IntRange.failsOnly_ofArgs (P := TemplateError.NoFault) (fun _ => rfl) (fun _ => rfl) args

theorem IntRange.faultless_steps (range : IntRange) : Faultless range.steps :=
  IntRange.failsOnly_steps (P := TemplateError.NoFault) (fun _ => rfl) rfl range

theorem FloatRange.faultless_ofArgs (args : List String) : Faultless (FloatRange.ofArgs args) :=
  FloatRange.failsOnly_ofArgs (P := TemplateError.NoFault) (fun _ => rfl) (fun _ => rfl) args

theorem FloatRange.faultless_check (range : FloatRange) : Faultless range.check :=
  FloatRange.failsOnly_check (P := TemplateError.NoFault) (fun _ => rfl) rfl range

theorem FloatSteps.faultless_ofArgs (args : List String) : Faultless (FloatSteps.ofArgs args) :=
  FloatSteps.failsOnly_ofArgs (P := TemplateError.NoFault) (fun _ => rfl) rfl (fun _ => rfl) args

/-! ## Operations -/

namespace Operation

variable {ρ : Type} [Draws ρ]

theorem faultless_pick {name : String} (values : List String) (r : ρ) :
    Faultless (pick name values r).1 :=
  failsOnly_pick (P := TemplateError.NoFault) rfl values r

theorem faultless_repeated (args : List String) : Faultless (repeated args) :=
  failsOnly_repeated (P := TemplateError.NoFault) (fun _ => rfl) (fun _ => rfl) args

/-- Operations without partial steps do not fail with an error that stands for a fault. -/
theorem faultless_run (today : String) (s : State) (args : List String) (r : ρ) :
    Faultless (cases.run today s args r).1 ∧ Faultless (identity.run today s args r).1 ∧
      Faultless (calculation.run today s args r).1 ∧ Faultless (quote.run today s args r).1 := by
  unfold run
  refine ⟨?_, ?_, ?_, ?_⟩ <;> dsimp only <;> split <;>
    first | exact faultless_ok _ | exact faultless_error rfl

end Operation

end Template

end ExamPaper
