import ExamPaper.Command.Arguments
import ExamPaper.Command.Report
import ExamPaper.Exam.Starter

/-!
# Carrying out a command

What a command line does to a disk, what it prints and the code that it ends with: zero if it
succeeds, one if it fails, two if no selection was found or the command line is not understood.

Mirrors `main`, `load_config`, `init` of the log and `run` of each command. What is logged is left
out, here and everywhere, so that the log is a file that has become empty. A command that the
program breaks off prints nothing and ends with the code of that (`brokenOffCode`).
-/

namespace ExamPaper

namespace Command

/-- What the program leaves behind. -/
structure Reply where
  code : Nat
  output : String
  disk : Disk
  deriving DecidableEq, Repr

namespace Reply

/-- The reply of a command that succeeds. -/
def success (lines : List String) (disk : Disk) : Reply := ⟨0, Report.unlines lines, disk⟩

/-- The reply of a command that fails. -/
def failure (lines : List String) (disk : Disk) : Reply := ⟨1, Report.unlines lines, disk⟩

end Reply

/-- The code of a run that is broken off. -/
def brokenOffCode : Nat := 101

/-- The reply of a run that fails; nothing is printed if it is broken off. -/
def failed (name : String) (e : RunError) (disk : Disk) : Reply :=
  if e.breaksOff then ⟨brokenOffCode, "", disk⟩ else .failure (Report.failure name e.message) disk

/-- Opens the file of the log, which becomes empty. What is written to it afterwards is left out:
the disk of a reply is the one without it. -/
def openLog (c : Configuration) (disk : Disk) : Except DiskError Disk :=
  match c.logging.file with
  | none => .ok disk
  | some file => disk.write file ""

/-- Goes on once the log is open; nothing is printed if it cannot be opened. -/
def withLog (c : Configuration) (disk : Disk) (go : Disk → Reply) : Reply :=
  match openLog c disk with
  | .error _ => ⟨1, "", disk⟩
  | .ok disk => go disk

variable [Readers]

/-- Goes on with a configuration and an open log. -/
def withConfiguration (env : Environment) (config : Option Path) (name : String) (disk : Disk)
    (go : Configuration → Disk → Reply) : Reply :=
  match Configuration.load env disk config with
  | .error e => .failure (Report.failure name e.message) disk
  | .ok c => withLog c disk (go c)

/-- Reports on a prepared run. -/
def reportPrepared (p : Prepared) (disk : Disk) : Reply :=
  match p.tree.firstIncorrect with
  | some node => .failure (Report.incorrect p.tree node.quota) disk
  | none => .success (Report.checked p) disk

/-- Checks an index. -/
def runCheck (c : Configuration) (today : Date) (index : Path) (bank : Option Path)
    (disk : Disk) : Reply :=
  match prepare disk index { bank } c.defaults today with
  | .error e => failed "check" e disk
  | .ok p => reportPrepared p disk

/-- Reports on a run. -/
def reportGeneration (p : Prepared) (g : Generation) : Reply :=
  match g.result with
  | .ok (.written e) => .success (Report.written p.settings.tolerance e) g.disk
  | .ok (.exhausted stats) => ⟨2, Report.unlines (Report.exhausted p stats), g.disk⟩
  | .error e => failed "generate" e g.disk

/-- Generates an edition. -/
def runGenerate [Generator] (c : Configuration) (today : Date) (index : Path)
    (overrides : Overrides) (options : GenerateOptions) (disk : Disk) : Reply :=
  match prepare disk index overrides c.defaults today with
  | .error e => failed "generate" e disk
  | .ok p => reportGeneration p (p.generate options today.text disk)

/-- Writes a starter index. -/
def runInit (index : Path) (disk : Disk) : Reply :=
  match Starter.write disk index with
  | ⟨.ok (), disk⟩ => .success (Report.started index) disk
  | ⟨.error e, disk⟩ => .failure (Report.failure "init" e.message) disk

/-- Reports on the configuration. -/
def runDoctor (env : Environment) (config : Option Path) (disk : Disk) : Reply :=
  match Configuration.load env disk config with
  | .error e => .failure (Report.notConfigured env config e) disk
  | .ok c => withLog c disk fun disk => .success (Report.configured env c) disk

/-- Carries out a command. -/
def carryOut [Generator] (env : Environment) (today : Date) (i : Invocation) (disk : Disk) :
    Reply :=
  match i.command with
  | .generate index overrides options =>
    withConfiguration env i.config "generate" disk fun c disk =>
      runGenerate c today index overrides options disk
  | .check index bank =>
    withConfiguration env i.config "check" disk fun c disk => runCheck c today index bank disk
  | .init index => runInit index disk
  | .doctor => runDoctor env i.config disk

/-- Carries out a command line. -/
def run [Generator] (env : Environment) (today : Date) (args : List String) (disk : Disk) : Reply :=
  match parse args with
  | .error .help => ⟨0, Report.helpText, disk⟩
  | .error .version => ⟨0, Report.versionText, disk⟩
  | .error .invalid => ⟨2, "", disk⟩
  | .ok i => carryOut env today i disk

end Command

end ExamPaper
