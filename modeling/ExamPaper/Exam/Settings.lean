import ExamPaper.Date
import ExamPaper.Exam.Index

/-!
# Settings of a run

Where the questions come from, the seed, how many attempts a search may make, and how far from the
target it may end. What the command line says counts before the index, the index before the
configuration, and the configuration before what is built in.

Mirrors `resolve_settings`, with the day of `default_seed` as an argument.
-/

namespace ExamPaper

/-- What the command line says; it counts before everything else. -/
structure Overrides where
  bank : Option Path := none
  seed : Option Nat := none
  tries : Option Nat := none
  tolerance : Option Float := none
  deriving DecidableEq, Repr

/-- What a configuration says; it counts where nothing else is said. -/
structure Defaults where
  tries : Option Nat := none
  tolerance : Option Float := none
  bank : Option Path := none
  deriving DecidableEq, Repr

/-- The settings of a run. -/
structure Settings where
  bank : Path
  seed : Nat
  tries : Nat
  tolerance : Float
  deriving DecidableEq, Repr

namespace Settings

/-- How far from the target a search may end if nothing is said. -/
def builtInTolerance : Float := 0.5

/-- How many attempts a search may make if nothing is said. -/
def builtInTries : Nat := 1000

/-- The bank of a run. That of an index is seen from the directory of the index. -/
def bank? (e : ExamIndex) (overrides : Overrides) (defaults : Defaults) : Option Path :=
  overrides.bank
    |>.or (e.bank.map fun bank => e.path.directory.join bank)
    |>.or defaults.bank

/-- How far from the target a search of a run may end. -/
def toleranceOf (e : ExamIndex) (overrides : Overrides) (defaults : Defaults) : Float :=
  (overrides.tolerance.or (e.tolerance.or defaults.tolerance)).getD builtInTolerance

/-- The settings of a run on a day. -/
def resolve (e : ExamIndex) (overrides : Overrides) (defaults : Defaults) (today : Date) :
    Except IndexError Settings :=
  match bank? e overrides defaults with
  | none => .error .noBank
  | some bank =>
    let tolerance := toleranceOf e overrides defaults
    if 0.0 < tolerance then
      .ok {
        bank, tolerance
        seed := (overrides.seed.or e.seed).getD today.seed
        tries := (overrides.tries.or (e.tries.or defaults.tries)).getD builtInTries }
    else .error (.invalidField "tolerance" .notPositive)

end Settings

end ExamPaper
