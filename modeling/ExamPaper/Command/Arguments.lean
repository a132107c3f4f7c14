import ExamPaper.Decimal.Reading
import ExamPaper.Exam.Settings
import ExamPaper.Run.Generation

/-!
# Arguments of the command line

A command line names a command, its index file and its options. An option has a long name after two
dashes, and may have a letter after one; its value follows as the next argument or after an equals
sign, and right after the letter too. An option may be given once. After two dashes alone everything
is a name.

The options mirror `GenerateArgs`, `CheckArgs` and `InitArgs`. What is printed about a command line
that is not understood is left out, and so is the help of single commands.
-/

namespace ExamPaper

namespace Command

/-- An option of the command line. -/
inductive Flag where
  | config
  | bank
  | edition
  | seed
  | tries
  | tolerance
  | acceptBest
  | help
  | version
  deriving DecidableEq, Repr

namespace Flag

/-- The long name of an option. -/
def name : Flag → String
  | config => "config"
  | bank => "bank"
  | edition => "edition"
  | seed => "seed"
  | tries => "tries"
  | tolerance => "tolerance"
  | acceptBest => "accept-best"
  | help => "help"
  | version => "version"

/-- The letter of an option. -/
def letter? : Flag → Option Char
  | bank => some 'b'
  | edition => some 'e'
  | seed => some 's'
  | tries => some 'a'
  | tolerance => some 't'
  | help => some 'h'
  | version => some 'V'
  | config | acceptBest => none

/-- Whether an option has a value. -/
def hasValue : Flag → Bool
  | acceptBest | help | version => false
  | _ => true

/-- Whether a text is a value of an option. -/
def allows : Flag → String → Bool
  | config, s | bank, s => !s.isEmpty
  | edition, s | seed, s | tries, s => (Text.count? s).isSome
  | tolerance, s => (Text.float? s).isSome
  | _, _ => true

end Flag

/-- Why a command line is not carried out. -/
inductive Stop where
  | help
  | version
  /-- It is not understood. -/
  | invalid
  deriving DecidableEq, Repr

/-- What has been read of a command line. -/
structure Reading where
  /-- The options given, with their values. -/
  given : List (Flag × String) := []
  names : List String := []
  /-- How many names there may be. -/
  room : Nat := 0
  /-- The option that waits for its value. -/
  pending : Option Flag := none
  /-- Whether only names follow. -/
  namesOnly : Bool := false
  deriving DecidableEq, Repr

namespace Reading

/-- The value of an option. -/
def get? (r : Reading) (f : Flag) : Option String := r.given.lookup f

/-- Whether an argument looks like an option; a dash alone is a name. -/
def looksLikeFlag (arg : List Char) : Bool := arg.head? == some '-' && arg != ['-']

/-- Adds an option with its value. -/
def give (r : Reading) (f : Flag) (value : String) : Except Stop Reading :=
  if (r.get? f).isSome || !f.allows value then .error .invalid
  else .ok { r with given := (f, value) :: r.given, pending := none }

/-- Adds a name. -/
def addName (r : Reading) (name : String) : Except Stop Reading :=
  if r.names.length < r.room && !name.isEmpty then .ok { r with names := r.names ++ [name] }
  else .error .invalid

/-- Reads an option, with the value that is attached to it. -/
def readFlag (r : Reading) (f : Flag) (attached : Option (List Char)) : Except Stop Reading :=
  if f.hasValue then
    match attached with
    | some value => r.give f (String.ofList value)
    | none => .ok { r with pending := some f }
  else match f with
    | .help => .error .help
    | .version => .error .version
    | f => r.give f ""

/-- Reads an option with a long name, its dashes taken off. -/
def readLong (allowed : List Flag) (r : Reading) (cs : List Char) : Except Stop Reading :=
  let name := String.ofList (cs.takeWhile (· ≠ '='))
  let attached := match cs.dropWhile (· ≠ '=') with
    | [] => none
    | _ :: value => some value
  match allowed.find? (·.name == name) with
  | none => .error .invalid
  | some f => if attached.isSome && !f.hasValue then .error .invalid else r.readFlag f attached

/-- Reads an option with a letter, its dash taken off; a value may be attached with or without an
equals sign. -/
def readShort (allowed : List Flag) (r : Reading) (letter : Char) (rest : List Char) :
    Except Stop Reading :=
  let attached := match rest with
    | [] => none
    | '=' :: value => some value
    | value => some value
  match allowed.find? (·.letter? == some letter) with
  | none => .error .invalid
  | some f => r.readFlag f attached

/-- Reads an argument. -/
def read (allowed : List Flag) (r : Reading) (arg : String) : Except Stop Reading :=
  if r.namesOnly then r.addName arg
  else match r.pending with
    | some f => if looksLikeFlag arg.toList then .error .invalid else r.give f arg
    | none => match arg.toList with
      | ['-', '-'] => .ok { r with namesOnly := true }
      | '-' :: '-' :: cs => r.readLong allowed cs
      | '-' :: c :: cs => r.readShort allowed c cs
      | _ => r.addName arg

/-- Reads arguments one after another. -/
def readAll (allowed : List Flag) (r : Reading) : List String → Except Stop Reading
  | [] => if r.pending.isSome then .error .invalid else .ok r
  | arg :: args =>
    match r.read allowed arg with
    | .error stop => .error stop
    | .ok r => readAll allowed r args

end Reading

end Command

/-- What a command line asks for. -/
inductive Command where
  | generate (index : Path) (overrides : Overrides) (options : GenerateOptions)
  | check (index : Path) (bank : Option Path)
  | init (index : Path)
  | doctor
  deriving DecidableEq, Repr

namespace Command

/-- A command with the path of its configuration, if one is given. -/
structure Invocation where
  command : Command
  config : Option Path
  deriving DecidableEq, Repr

/-- The options of a command, by the name of the command. -/
def flagsOf? : String → Option (List Flag)
  | "generate" =>
    some [.config, .bank, .edition, .seed, .tries, .tolerance, .acceptBest, .help]
  | "check" => some [.config, .bank, .help]
  | "init" | "doctor" => some [.config, .help]
  | _ => none

/-- How many names a command has. -/
def roomOf (name : String) : Nat := if name = "doctor" then 0 else 1

/-- The path that is the value of an option. -/
def path? (r : Reading) (f : Flag) : Option Path := (r.get? f).map Path.mk

/-- The count that is the value of an option. -/
def count? (r : Reading) (f : Flag) : Option Nat := (r.get? f).bind Text.count?

/-- The command with a name, for its index and its options. -/
def ofReading? (name : String) (r : Reading) : Option Command :=
  match name, r.names with
  | "generate", [index] =>
    some <| .generate ⟨index⟩
      { bank := path? r .bank, seed := count? r .seed, tries := count? r .tries,
        tolerance := (r.get? .tolerance).bind Text.float? }
      { edition := count? r .edition, acceptBest := (r.get? .acceptBest).isSome }
  | "check", [index] => some (.check ⟨index⟩ (path? r .bank))
  | "init", [index] => some (.init ⟨index⟩)
  | "doctor", [] => some .doctor
  | _, _ => none

/-- Reads the arguments of a command, after the options before its name. A configuration named
after the command counts before one that is named before it. -/
def parseCommand (before : Reading) (name : String) (args : List String) :
    Except Stop Invocation :=
  match flagsOf? name with
  | none => .error .invalid
  | some allowed =>
    match Reading.readAll allowed { room := roomOf name } args with
    | .error stop => .error stop
    | .ok r =>
      match ofReading? name r with
      | none => .error .invalid
      | some command => .ok { command, config := (path? r .config).or (path? before .config) }

/-- Reads the names after `help`, which have to be those of commands. -/
def parseHelp : List String → Stop
  | [] => .help
  | [name] => if name = "help" || (flagsOf? name).isSome then .help else .invalid
  | _ => .invalid

/-- Reads a command line after the options read so far. -/
def parseFrom (before : Reading) : List String → Except Stop Invocation
  | [] => .error .invalid
  | arg :: args =>
    if before.pending.isNone && !Reading.looksLikeFlag arg.toList then
      if arg = "help" then .error (parseHelp args) else parseCommand before arg args
    else if arg = "--" then .error .invalid
    else match before.read [.config, .help, .version] arg with
      | .error stop => .error stop
      | .ok before => parseFrom before args

/-- Reads a command line. -/
def parse (args : List String) : Except Stop Invocation := parseFrom {} args

end Command

end ExamPaper
