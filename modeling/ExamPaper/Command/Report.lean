import ExamPaper.Configuration.Reading
import ExamPaper.Run.Generation
import ExamPaper.Text.Grid

/-!
# Reports

What the commands print: a first line that says whether the command succeeded, and below it what was
found, line by line.

Mirrors the lines that `run` of `check`, `generate`, `init` and `doctor` prints, with `fail` and
`load_config` for what cannot be carried out, and the table of `LeafRow`.
-/

namespace ExamPaper

namespace Report

/-- The lines of a text that ends each line. -/
def unlines (lines : List String) : String := String.join (lines.map (· ++ "\n"))

/-- The version of the command line. -/
def programVersion : String := "0.4.2"

/-- The version of the library. -/
def libraryVersion : String := "0.3.1"

/-- The line of the program and its version. -/
def versionText : String := unlines ["randexam " ++ programVersion]

/-- The report of a command that failed. -/
def failure (command message : String) : List String := ["FAIL randexam " ++ command, message]

/-- The row of a leaf of the quota tree. -/
def leafRow (leaf : QuotaLeaf) : List String :=
  [leaf.quota.label,
    Nat.repr leaf.quota.min ++ ".." ++ Nat.repr leaf.quota.max,
    Nat.repr leaf.bank.length,
    match Sample.estimate? leaf.bank with
    | some x => Decimal.fixed 2 x
    | none => "-"]

/-- The report of a quota tree that cannot be filled, because of the given node. -/
def incorrect (tree : QuotaTree) (q : Quota) : List String :=
  failure "check" tree.text ++
    ["node '" ++ q.label ++ "' cannot satisfy [" ++ Nat.repr q.min ++ ":" ++ Nat.repr q.max ++ "]"]

/-- The report of a prepared run that can be carried out. -/
def checked (p : Prepared) : List String :=
  ["OK   randexam check",
    "bank:      " ++ p.settings.bank.text ++ " (" ++ Nat.repr p.questions.length ++ " questions)",
    "questions: " ++ Nat.repr p.tree.quota.min ++ " to " ++ Nat.repr p.tree.quota.max,
    "target:    " ++ Decimal.text p.exam.difficulty,
    "",
    p.tree.text] ++
    Grid.lines ["Leaf", "Range", "Bank", "Est. difficulty"] (p.tree.leaves.map leafRow)

/-- The line on an edition that is only the closest one. -/
def warning (tolerance : Float) (stats : SearchStats) : String :=
  "warning: no attempt within " ++ Decimal.text tolerance ++ " of the target after " ++
    Nat.repr stats.attempts ++ " tries (seen " ++ Decimal.text stats.minDifficulty ++ " to " ++
    Decimal.text stats.maxDifficulty ++ ")"

/-- The report of an edition that was written. -/
def written (tolerance : Float) (e : Edition) : List String :=
  ["OK   randexam generate",
    "edition:    " ++ Nat.repr e.number,
    "seed:       " ++ Nat.repr e.seed,
    "target:     " ++ Decimal.text e.target,
    "difficulty: " ++ Decimal.text e.attempt.difficulty,
    "questions:  " ++ Nat.repr e.attempt.questions.length] ++
    e.paths.map (fun path => "wrote: " ++ path.text) ++
    (e.bestEffort.map (warning tolerance)).toList

/-- The report of a search without a selection. -/
def exhausted (p : Prepared) (stats : SearchStats) : List String :=
  ["FAIL randexam generate",
    "no attempt within " ++ Decimal.text p.settings.tolerance ++ " of target " ++
      Decimal.text p.exam.difficulty ++ " after " ++ Nat.repr stats.attempts ++ " tries",
    "difficulty range seen: " ++ Decimal.text stats.minDifficulty ++ " to " ++
      Decimal.text stats.maxDifficulty,
    "closest attempt: " ++ Decimal.text stats.best.difficulty,
    "hint: raise --tolerance, adjust the target, or pass --accept-best"]

/-- The report of a starter index that was written. -/
def started (index : Path) : List String :=
  ["OK   randexam init",
    "wrote: " ++ index.text,
    "next: add question files under the bank directory, then run",
    "      randexam check " ++ index.text]

/-- The line on where a configuration comes from. -/
def sourceLine (env : Environment) (c : Configuration) : String :=
  match c.source with
  | some path => "path: " ++ path.text
  | none =>
    "path: (none, using defaults; looked for " ++ (Configuration.defaultPath env).text ++ ")"

/-- The report of a configuration. -/
def configured (env : Environment) (c : Configuration) : List String :=
  ["OK   randexam doctor",
    "core: v" ++ libraryVersion,
    sourceLine env c,
    "defaults.tries:     " ++ Nat.repr (c.defaults.tries.getD Settings.builtInTries),
    "defaults.tolerance: " ++
      Decimal.text (c.defaults.tolerance.getD Settings.builtInTolerance),
    "defaults.bank:      " ++ (c.defaults.bank.map Path.text).getD "(from index)",
    "logging.level:      " ++ c.logging.level] ++
    (c.logging.file.map fun file => "logging.file:       " ++ file.text).toList

/-- The report of a configuration that cannot be had. -/
def notConfigured (env : Environment) (config : Option Path) (e : ConfigurationError) :
    List String :=
  failure "doctor" e.message ++
    match config with
    | none => ["looked for: " ++ (Configuration.defaultPath env).text]
    | some _ => []

/-- What the program says about itself. -/
def helpText : String := unlines [
  "Randomized exam generator",
  "",
  "Usage: randexam [OPTIONS] <COMMAND>",
  "",
  "Commands:",
  "  generate  Assemble an exam from an index file and write one file per channel",
  "  check     Resolve the quota tree of an index file without sampling",
  "  init      Write a starter index file",
  "  doctor    Validate configuration and print resolved values",
  "  help      Print this message or the help of the given subcommand(s)",
  "",
  "Options:",
  "      --config <CONFIG>  Path to the configuration file",
  "  -h, --help             Print help",
  "  -V, --version          Print version"]

end Report

end ExamPaper
