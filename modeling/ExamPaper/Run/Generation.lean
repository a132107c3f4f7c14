import ExamPaper.Exam.Rendering
import ExamPaper.Limits
import ExamPaper.Random.Generator
import ExamPaper.Run.Preparation

/-!
# Generating an edition

A prepared run searches a selection of questions, renders it and writes its files. The edition is
added to the seed, so that editions differ. Nothing is written unless everything before has
succeeded; a search that ends without a selection writes nothing either, unless the run accepts the
closest one.

Mirrors `generate`, with `GenerateOptions`, `Generated` and `GenerateOutcome`. What is logged is
left out, and the generator is a parameter (`Generator`).
-/

namespace ExamPaper

/-- What a run may ask for beyond its settings. -/
structure GenerateOptions where
  /-- The edition, if it is not to be the first free one. -/
  edition : Option Nat := none
  /-- Whether the closest selection will do. -/
  acceptBest : Bool := false
  deriving DecidableEq, Repr

/-- An edition that was written. -/
structure Edition where
  number : Nat
  seed : Nat
  target : Float
  attempt : Attempt
  paths : List Path
  /-- What the search has seen, if its selection is only the closest one. -/
  bestEffort : Option SearchStats
  deriving DecidableEq, Repr

/-- How a run ends that does not fail. -/
inductive GenerateOutcome where
  | written (edition : Edition)
  | exhausted (stats : SearchStats)
  deriving DecidableEq, Repr

/-- The disk after a run, and how the run ended. -/
structure Generation where
  result : Except RunError GenerateOutcome
  disk : Disk

namespace Prepared

/-- The edition of a run: the one asked for, or the first free one. -/
def edition (p : Prepared) (disk : Disk) (options : GenerateOptions) : Nat :=
  options.edition.getD (Outputs.firstFree disk p.exam.path p.exam.files)

/-- The seed of an edition, a number of 64 bits. -/
def seedOf (p : Prepared) (edition : Nat) : Nat := (p.settings.seed + edition) % wordLimit

/-- What the search of a run looks for. -/
def searchParams (p : Prepared) : SearchParams where
  target := p.exam.difficulty
  tolerance := p.settings.tolerance
  tries := p.settings.tries

/-- The selection that is to be rendered, with what the search has seen if it is only the closest
one; an error if the run does not accept that one. -/
def accepted (options : GenerateOptions) :
    SearchOutcome → Except SearchStats (Attempt × Option SearchStats)
  | .found a => .ok (a, none)
  | .exhausted stats => if options.acceptBest then .ok (stats.best, some stats) else .error stats

/-- Writes the texts of an edition. -/
def writeEdition (edition : Edition) (texts : List String) (disk : Disk) : Generation :=
  match Outputs.write disk edition.paths texts with
  | ⟨.error e, disk⟩ => ⟨.error (.output e), disk⟩
  | ⟨.ok (), disk⟩ => ⟨.ok (.written edition), disk⟩

/-- Searches, renders and writes one edition. -/
def generate [Generator] (p : Prepared) (options : GenerateOptions) (today : String)
    (disk : Disk) : Generation :=
  let number := p.edition disk options
  let seed := p.seedOf number
  let rng := Generator.seeded (UInt64.ofNat seed)
  match Search.search p.tree p.searchParams rng with
  | (.error e, _) => ⟨.error (.ofSearch e), disk⟩
  | (.ok outcome, rng) =>
    match accepted options outcome with
    | .error stats => ⟨.ok (.exhausted stats), disk⟩
    | .ok (attempt, bestEffort) =>
      match (Rendering.render p.exam today attempt.questions rng).1 with
      | .error e => ⟨.error (.template e), disk⟩
      | .ok texts =>
        let paths := Outputs.paths p.exam.path p.exam.files number
        let target := p.exam.difficulty
        writeEdition { number, seed, target, attempt, paths, bestEffort } texts disk

end Prepared

end ExamPaper
