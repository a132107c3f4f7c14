import ExamPaper.Command.Run
import Std.Time.Zoned

/-!
# The program

Reads from the machine what a command may look at, carries the command out, and puts what it has
written on the machine. Everything that is decided is decided by `ExamPaper.Command.run`.

Mirrors the outermost part of `main`. It looks at the files that a command may read before the
command is carried out, and writes back what has changed.
-/

namespace ExamPaper

namespace Program

/-- The path of a location on the machine. -/
def placeText (place : Location) : String := "/" ++ String.intercalate "/" place

/-- What is at a location of the machine. The text of a file is read only if it is asked for. -/
def probe (place : Location) (withText : Bool) : IO (Option Entry) := do
  try
    let path ← IO.FS.realPath (placeText place)
    if ← path.isDir then
      return some .directory
    else if ← path.pathExists then
      if withText then
        return some (.file (String.fromUTF8? (← IO.FS.readBinFile path)))
      else
        return some (.file none)
    else
      return none
  catch _ => return none

/-- Adds what is at a location. -/
def addPlace (disk : Disk) (place : Location) (withText : Bool) : IO Disk := do
  match ← probe place withText with
  | some entry => return disk.insert place entry
  | none => return disk

/-- The location that names lead to, without a look at the machine. -/
def placeOf (start : Location) (names : List String) : Location :=
  names.foldl (fun place name =>
    if name = "" ∨ name = "." then place
    else if name = ".." then place.dropLast
    else place ++ [name]) start

/-- The location of a path. -/
def pathPlace (disk : Disk) (path : Path) : Location :=
  placeOf (if path.isAbsolute then [] else disk.workingDirectory) (Disk.names path)

/-- Adds what is at a path and on the way to it. -/
def addPath (disk : Disk) (path : Path) : IO Disk := do
  let names := Disk.names path
  let start := if path.isAbsolute then [] else disk.workingDirectory
  let mut disk := disk
  for k in List.range (names.length + 1) do
    let place := placeOf start (names.take k)
    if (disk.entryAt? place).isNone then
      disk ← addPlace disk place true
  return disk

/-- The names in a directory. -/
def listNames (place : Location) : IO (List String) := do
  try
    let path ← IO.FS.realPath (placeText place)
    return (← path.readDir).toList.map (·.fileName)
  catch _ => return []

/-- Adds what is in a directory, without the texts of files. -/
def addNames (disk : Disk) (place : Location) : IO Disk := do
  let mut disk := disk
  for name in ← listNames place do
    if (disk.entryAt? (place ++ [name])).isNone then
      disk ← addPlace disk (place ++ [name]) false
  return disk

/-- Adds the question files at a location and below it. -/
partial def addBelow (disk : Disk) (place : Location) : IO Disk := do
  let disk ← addPlace disk place (Bank.isQuestionFile ⟨placeText place⟩)
  match disk.entryAt? place with
  | some .directory =>
    let mut disk := disk
    for name in ← listNames place do
      disk ← addBelow disk (place ++ [name])
    return disk
  | _ => return disk

/-- The values of the variables that a text may refer to. -/
def environmentFor (text : String) : IO Environment := do
  let words := String.ofList (text.toList.map fun c => if Environment.isNameChar c then c else ' ')
  let mut entries : NameMap String := ∅
  for name in ["HOME", "XDG_CONFIG_HOME"] ++ words.splitOn " " do
    if !name.isEmpty then
      if let some value ← IO.getEnv name then
        entries := entries.insert name value
  return { entries }

/-- The index that a command reads, and the bank that its command line names. -/
def subject? : Command → Option (Path × Overrides)
  | .generate index overrides _ => some (index, overrides)
  | .check index bank => some (index, { bank })
  | .init index => some (index, {})
  | .doctor => none

/-- Adds the bank of an index. -/
def addBank (disk : Disk) (c : Configuration) (index : Path) (overrides : Overrides) : IO Disk := do
  match ExamIndex.load disk index with
  | .error _ => return disk
  | .ok exam =>
    match Settings.bank? exam overrides c.defaults with
    | none => return disk
    | some bank => addBelow (← addPath disk bank) (pathPlace disk bank)

/-- What a command may look at. -/
def snapshot (env : Environment) (disk : Disk) (i : Command.Invocation) : IO Disk := do
  let c := match Configuration.load env disk i.config with
    | .ok c => c
    | .error _ => {}
  let disk ← match c.logging.file with
    | some file => addPath disk file
    | none => pure disk
  match subject? i.command with
  | none => return disk
  | some (index, overrides) =>
    let disk ← addPath disk index
    let disk ← addNames disk (pathPlace disk index.directory)
    addBank disk c index overrides

/-- Puts on the machine what is new on a disk. -/
def writeBack (before after : Disk) : IO Unit := do
  for (place, entry) in after.entries do
    if before.entryAt? place != some entry then
      match entry with
      | .directory => IO.FS.createDirAll (placeText place)
      | .file text => IO.FS.writeFile (placeText place) (text.getD "")

/-- The date of today. -/
def today : IO Date := do
  let date ← Std.Time.PlainDate.now
  return { year := date.year.toInt.toNat, month := date.month.toNat, day := date.day.toNat }

/-- The disk with its working directory and the directories on the way to it. -/
def startDisk : IO Disk := do
  let place := (Text.splitAtChar '/' (← IO.currentDir).toString.toList).map String.ofList
  let place := place.filter fun name => !name.isEmpty
  addPath { workingDirectory := place } ⟨placeText place⟩

/-- Carries out a command line on the machine. -/
def runOnMachine (args : List String) : IO UInt32 := do
  let start ← startDisk
  match Command.parse args with
  | .error _ =>
    let reply := Command.run {} (← today) args start
    IO.print reply.output
    return UInt32.ofNat reply.code
  | .ok i =>
    let places ← environmentFor ""
    let source := i.config.getD (Configuration.defaultPath places)
    let disk ← addPath start source
    let env ← environmentFor ((disk.read source).toOption.getD "")
    let disk ← snapshot env disk i
    let reply := Command.run env (← today) args disk
    writeBack disk reply.disk
    IO.print reply.output
    return UInt32.ofNat reply.code

end Program

end ExamPaper

/-- Carries out the command line. -/
def main (args : List String) : IO UInt32 := ExamPaper.Program.runOnMachine args
