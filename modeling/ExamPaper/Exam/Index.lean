import ExamPaper.Exam.Error
import ExamPaper.Macro.Table
import ExamPaper.Question.Basic
import ExamPaper.Quota.Spec
import ExamPaper.Readers

/-!
# Exam indexes

An exam index says what to draw and how to present it: the difficulty to aim at, the parts, the
output files, the macros, and texts for the beginning and the end of each file. The name of an
output file without its extension is the channel of its texts. Fields that have no meaning of their
own are metadata, which beginnings and ends can refer to.

Mirrors `ExamSpec`, `load_exam`, `parse_exam` and `scalar_text`. File, channel, beginning and end of
an output are one record here (`OutputChannel`) where there are four lists of one length.
-/

namespace ExamPaper

/-- An output file: its name as written, its channel, and the texts at its beginning and end. -/
structure OutputChannel where
  file : String
  id : String
  header : String
  footer : String
  deriving DecidableEq, Repr

/-- What an exam index says. -/
structure ExamIndex where
  /-- Where the index was read. -/
  path : Path
  /-- The sum of difficulties to aim at. -/
  difficulty : Float
  tolerance : Option Float
  tries : Option Nat
  seed : Option Nat
  /-- The question bank, seen from the directory of the index. -/
  bank : Option Path
  channels : List OutputChannel
  macros : MacroTable
  metadata : NameMap String
  parts : QuotaSpec
  deriving Repr

namespace ExamIndex

/-- The fields with a meaning of their own. -/
def knownFields : List String :=
  ["difficulty", "tolerance", "tries", "seed", "bank", "files", "macros", "parts"]

/-- The value of a field, if it is not null. -/
def field? (entries : Entries) (name : String) : Option Value :=
  (entries.get? name).filter fun v => !v.isNull

/-- The value of a field that has to be there. -/
def required (entries : Entries) (name : String) : Except IndexError Value :=
  match field? entries name with
  | none => .error (.missingField name)
  | some v => .ok v

/-- The difficulty to aim at. -/
def readDifficulty (entries : Entries) : Except IndexError Float :=
  match required entries "difficulty" with
  | .error e => .error e
  | .ok v => match v.float? with
    | none => .error (.invalidField "difficulty" .notANumber)
    | some x => .ok x

/-- What a field denotes under a reading that may fail; none if there is no such field. -/
def optional {α : Type} (entries : Entries) (name : String) (fault : IndexFault)
    (read : Value → Option α) : Except IndexError (Option α) :=
  match field? entries name with
  | none => .ok none
  | some v => match read v with
    | none => .error (.invalidField name fault)
    | some x => .ok (some x)

/-- The text of the names of output files, one or a list of them. -/
def readFiles (entries : Entries) : Except IndexError (List String) :=
  match required entries "files" with
  | .error e => .error e
  | .ok (.text s) => .ok [s]
  | .ok (.list items) =>
    match items.mapM Value.text? with
    | none => .error (.invalidField "files" .notAFileName)
    | some [] => .error (.invalidField "files" .noFile)
    | some files => .ok files
  | .ok _ => .error (.invalidField "files" .notFileNames)

/-- The channels of output files, after those in `seen`. -/
def channelIds (seen : List String) : List String → Except IndexError (List String)
  | [] => .ok []
  | file :: files =>
    match (Path.stem? ⟨file⟩).filter fun id => !id.isEmpty with
    | none => .error (.invalidField "files" .notAFileName)
    | some id =>
      if reservedFields.contains id then .error (.reservedChannel file)
      else if seen.contains id then .error (.duplicateChannel id)
      else (channelIds (seen ++ [id]) files).map (id :: ·)

/-- The text of a field, empty if there is none. -/
def readText (entries : Entries) (name : String) : Except IndexError String :=
  match field? entries name with
  | none => .ok ""
  | some v => match v.scalarText? with
    | none => .error (.invalidField name .notText)
    | some s => .ok s

/-- The texts of the fields whose names are the given start and a channel. -/
def readTexts (entries : Entries) (start : String) : List String → Except IndexError (List String)
  | [] => .ok []
  | id :: ids =>
    match readText entries (start ++ id) with
    | .error e => .error e
    | .ok text => (readTexts entries start ids).map (text :: ·)

/-- The output channels of files. -/
def outputChannels : List String → List String → List String → List String → List OutputChannel
  | file :: files, id :: ids, header :: headers, footer :: footers =>
    { file, id, header, footer } :: outputChannels files ids headers footers
  | _, _, _, _ => []

/-- The output channels of an index. -/
def readChannels (entries : Entries) : Except IndexError (List OutputChannel) :=
  match readFiles entries with
  | .error e => .error e
  | .ok files =>
  match channelIds [] files with
  | .error e => .error e
  | .ok ids =>
  match readTexts entries "begin_" ids with
  | .error e => .error e
  | .ok headers =>
  match readTexts entries "end_" ids with
  | .error e => .error e
  | .ok footers => .ok (outputChannels files ids headers footers)

/-- The macros of an index. -/
def readMacros (entries : Entries) : Except IndexError MacroTable :=
  match field? entries "macros" with
  | none => .ok ∅
  | some v => (MacroTable.ofValue v).mapError .macros

/-- The parts of an index. -/
def readParts (entries : Entries) : Except IndexError QuotaSpec :=
  match required entries "parts" with
  | .error e => .error e
  | .ok v => (QuotaSpec.ofValue v).mapError .parts

/-- Whether a field is metadata: it has no meaning of its own. -/
def isMetadata (name : String) : Bool :=
  !knownFields.contains name && (Text.dropPrefix? "begin_".toList name.toList).isNone &&
    (Text.dropPrefix? "end_".toList name.toList).isNone

/-- The metadata of an index: the fields without a meaning of their own that are single values. -/
def metadataOf (entries : Entries) : NameMap String :=
  .ofList <| entries.filterMap fun (k, v) =>
    match k.text? with
    | none => none
    | some name =>
      if isMetadata name then v.scalarText?.map fun text => (name, text) else none

/-- Reads an index from the entries of its document. -/
def ofEntries (path : Path) (entries : Entries) : Except IndexError ExamIndex :=
  match readDifficulty entries with
  | .error e => .error e
  | .ok difficulty =>
  match optional entries "tolerance" .notPositive fun v => v.float?.filter (0.0 < ·) with
  | .error e => .error e
  | .ok tolerance =>
  match optional entries "tries" .notACount Value.count? with
  | .error e => .error e
  | .ok tries =>
  match optional entries "seed" .notACount Value.count? with
  | .error e => .error e
  | .ok seed =>
  match optional entries "bank" .notAPath fun v => v.text?.map Path.mk with
  | .error e => .error e
  | .ok bank =>
  match readChannels entries with
  | .error e => .error e
  | .ok channels =>
  match readMacros entries with
  | .error e => .error e
  | .ok macros =>
  match readParts entries with
  | .error e => .error e
  | .ok parts =>
    .ok {
      path, difficulty, tolerance, tries, seed, bank, channels, macros, parts
      metadata := metadataOf entries }

/-- Reads the index at a path. -/
def load [Readers] (disk : Disk) (path : Path) : Except IndexError ExamIndex :=
  if disk.contains path then
    match disk.read path with
    | .error e => .error (.unreadable path e)
    | .ok text =>
      match Readers.document? text with
      | none => .error (.notYaml path)
      | some (.mapping entries) => ofEntries path entries
      | some _ => .error (.notAMapping path)
  else .error (.missing path)

/-- The names of the output files. -/
def files (e : ExamIndex) : List String := e.channels.map (·.file)

/-- The channels of the output files. -/
def ids (e : ExamIndex) : List String := e.channels.map (·.id)

end ExamIndex

end ExamPaper
