import ExamPaper.Configuration.Error
import ExamPaper.Exam.Settings
import ExamPaper.Limits
import ExamPaper.Readers

/-!
# Configurations

A configuration is a TOML file with a version, the defaults of runs and what is to be logged. It may
lie anywhere if its path is given, and otherwise at a place that the environment names; there it
need not be. Unknown fields are errors, except in the table on logging.

Mirrors `load`, `resolve`, `default_config_path` and `expand_path`. The environment is an argument,
and the reader of the format is one of the `Readers`.
-/

namespace ExamPaper

/-- What is to be logged. -/
structure Logging where
  level : String := "info"
  /-- What is to be logged in the file, if that differs. -/
  fileLevel : Option String := none
  file : Option Path := none
  deriving DecidableEq, Repr

/-- A configuration, as a run sees it. -/
structure Configuration where
  /-- Where it was read; none if there was nothing to read. -/
  source : Option Path := none
  defaults : Defaults := {}
  logging : Logging := {}
  deriving DecidableEq, Repr

/-- A configuration as it is written. -/
structure WrittenConfiguration where
  version : Nat
  defaults : Defaults
  logging : Logging
  deriving DecidableEq, Repr

namespace Configuration

/-! ## Reading a document -/

/-- A whole number from zero on, below a limit. -/
def count? (limit : Nat) : Toml.Value → Option Nat
  | .integer n => if 0 ≤ n ∧ n < limit then some n.toNat else none
  | _ => none

/-- A number. -/
def float? : Toml.Value → Option Float
  | .integer n => some (Float.ofInt n)
  | .float x => some x
  | _ => none

/-- A text. -/
def text? : Toml.Value → Option String
  | .text s => some s
  | _ => none

/-- What a field denotes under a reading; none if the reading fails, and nothing if there is no
such field. -/
def fieldOf? {α : Type} (read : Toml.Value → Option α) (v : Option Toml.Value) :
    Option (Option α) :=
  match v with
  | none => some none
  | some v => (read v).map some

/-- The values of fields with the given names in a table that may have no others, or in a list that
gives them in this order. -/
def fields? (names : List String) (others : Bool) : Toml.Value → Option (List (Option Toml.Value))
  | .table _ es =>
    if others || es.all (fun (name, _) => names.contains name) then
      some (names.map (Toml.Entries.get? es))
    else none
  | .list _ items => some ((items.take names.length).map some ++
      List.replicate (names.length - items.length) none)
  | _ => none

/-- The defaults of runs. -/
def defaults? (v : Toml.Value) : Option Defaults :=
  match fields? ["tries", "tolerance", "bank"] false v with
  | some [tries, tolerance, bank] => do
    let tries ← fieldOf? (count? wordLimit) tries
    let tolerance ← fieldOf? float? tolerance
    let bank ← fieldOf? text? bank
    some { tries, tolerance, bank := bank.map Path.mk }
  | _ => none

/-- What is to be logged. -/
def logging? (v : Toml.Value) : Option Logging :=
  match fields? ["level", "file_level", "file"] true v with
  | some [level, fileLevel, file] => do
    let level ← fieldOf? text? level
    let fileLevel ← fieldOf? text? fileLevel
    let file ← fieldOf? text? file
    some { level := level.getD "info", fileLevel, file := file.map Path.mk }
  | _ => none

/-- The configuration of a document. -/
def ofEntries? (es : Toml.Entries) : Option WrittenConfiguration :=
  match fields? ["version", "defaults", "logging"] false (.table .header es) with
  | some [version, defaults, logging] => do
    let version ← version.bind (count? 0x100000000)
    let defaults ← fieldOf? defaults? defaults
    let logging ← fieldOf? logging? logging
    some { version, defaults := defaults.getD {}, logging := logging.getD {} }
  | _ => none

/-! ## Paths -/

variable [Readers]

/-- A path with variables and a tilde replaced, if there is a path. -/
def expandPath (env : Environment) : Option Path → Except ConfigurationError (Option Path)
  | none => .ok none
  | some p => match Readers.expand? env p.text with
    | none => .error .noHome
    | some p => .ok (some p)

/-- The configuration that was read at a path, its own paths expanded. -/
def resolve (env : Environment) (source : Path) (w : WrittenConfiguration) :
    Except ConfigurationError Configuration :=
  if w.version ≠ 1 then .error (.badVersion w.version)
  else if w.defaults.tolerance.any fun x => !(0.0 < x) then
    .error (.notPositive "defaults.tolerance")
  else
    match expandPath env w.defaults.bank with
    | .error e => .error e
    | .ok bank =>
    match expandPath env w.logging.file with
    | .error e => .error e
    | .ok file =>
      .ok {
        source := some source
        defaults := { w.defaults with bank }
        logging := { w.logging with file } }

/-- Where a configuration is looked for if no path is given. -/
def defaultPath (env : Environment) : Path :=
  let directory : Path := match env.get? "XDG_CONFIG_HOME" with
    | some directory => ⟨directory⟩
    | none => Path.join ⟨env.home?.getD "~"⟩ ⟨".config"⟩
  (directory.join ⟨"randexam"⟩).join ⟨"config.toml"⟩

/-- Reads the configuration at a path. -/
def read (env : Environment) (disk : Disk) (path : Path) :
    Except ConfigurationError Configuration :=
  match disk.read path with
  | .error e => .error (.unreadable path e)
  | .ok text =>
    match (Readers.table? text).bind ofEntries? with
    | none => .error (.malformed path)
    | some w => resolve env path w

/-- The configuration at a path, which has to be there, or at the default path. -/
def load (env : Environment) (disk : Disk) : Option Path → Except ConfigurationError Configuration
  | some path => if disk.contains path then read env disk path else .error (.missing path)
  | none =>
    let path := defaultPath env
    if disk.contains path then read env disk path else .ok {}

end Configuration

end ExamPaper
