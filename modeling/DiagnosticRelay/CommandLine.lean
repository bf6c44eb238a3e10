import DiagnosticRelay.ConfigFile
import DiagnosticRelay.Compile.Decoding
import DiagnosticRelay.Replay

/-!
# The command line

The only command replays recorded compile results against a source file and prints every notice as a
JSON line. The source file and all results are read before anything is printed, in the order in
which they are given, and the first that fails ends the command with status 1. Misuse of the command
line has status 2.

A path can be written only if it is a text. All paths in results are, and so are the arguments, but
the path that the source file really has need not be. The notices are written one after the other,
so a notice with such a path stops the writing where the path would begin, and the command ends with
status 1 as well. The output itself is taken to accept whatever is written.

A configuration that cannot be used counts as none, and a warning about it is logged. Which log
entries are shown is decided by a filter: the environment's variable if it holds one, else the one
that is configured. The log goes to a stream of its own and is no part of how a command ends.
-/

namespace DiagnosticRelay

namespace CommandLine

/-- What a command line asks for. -/
inductive Request where
  | replay (source : Path) (results : List Path)
  /-- Show a help text. -/
  | help (lines : List String)
  | misuse
  deriving DecidableEq, Repr

def generalHelp : List String := [
  "Replay recorded clang results through the diagnostics provider",
  "",
  "Usage: clarion <COMMAND>",
  "",
  "Commands:",
  "  replay  Compile a source file against recorded results, printing events as JSON lines",
  "  help    Print this message or the help of the given subcommand(s)",
  "",
  "Options:",
  "  -h, --help  Print help"]

def replayHelp : List String := [
  "Compile a source file against recorded results, printing events as JSON lines",
  "",
  "Usage: clarion replay <SOURCE> <RESULTS>...",
  "",
  "Arguments:",
  "  <SOURCE>      Source file the results were recorded for",
  "  <RESULTS>...  Recorded compile results: the first answers open, the rest answer saves",
  "",
  "Options:",
  "  -h, --help  Print help"]

def helpHelp : List String := [
  "Print this message or the help of the given subcommand(s)",
  "",
  "Usage: clarion help [COMMAND]...",
  "",
  "Arguments:",
  "  [COMMAND]...  Print help for the subcommand(s)"]

/-- Whether an argument asks for help. Letters after `-h` do not matter. -/
def asksForHelp (arg : String) : Bool := arg = "--help" || arg.startsWith "-h"

/-- Whether an argument is an option. A single dash is not. -/
def isOption (arg : String) : Bool := arg.startsWith "-" && arg ≠ "-"

/-- The files named by the arguments of a replay; the flag says whether options have ended. -/
def replayFiles : Bool → List String → Except Request (List Path)
  | _, [] => .ok []
  | isPlain, arg :: args =>
    if ! isPlain && arg = "--" then replayFiles true args
    else if ! isPlain && asksForHelp arg then .error (.help replayHelp)
    else if ! isPlain && isOption arg then .error .misuse
    else if arg.isEmpty then .error .misuse
    else do .ok (⟨arg⟩ :: (← replayFiles isPlain args))

/-- What the arguments of a replay ask for. -/
def parseReplay (args : List String) : Request :=
  match replayFiles false args with
  | .error request => request
  | .ok (source :: result :: results) => .replay source (result :: results)
  | .ok _ => .misuse

/-- What a command line asks for. -/
def parse : List String → Request
  | "replay" :: args => parseReplay args
  | ["help"] => .help generalHelp
  | ["help", "help"] => .help helpHelp
  | ["help", "replay"] => .help replayHelp
  | arg :: _ => if asksForHelp arg then .help generalHelp else .misuse
  | [] => .misuse

/-- A file that cannot be used. -/
inductive InputError where
  | readSource (path : Path)
  | readResult (path : Path)
  | parseResult (path : Path)
  deriving DecidableEq, Repr

def InputError.message : InputError → String
  | .readSource path => "failed to read source file " ++ path.text
  | .readResult path => "failed to read compile result " ++ path.text
  | .parseResult path => "failed to parse compile result " ++ path.text

/-- The identity of the one document that is replayed. -/
def documentId : DocumentId := ⟨1⟩

/-- A file that was read. -/
structure TextFile where
  path : RealPath
  text : String

def loadSource (fs : FileSystem) (path : Path) : Except InputError TextFile :=
  match fs.read path with
  | .error _ => .error (.readSource path)
  | .ok text => .ok ⟨fs.realPath path, text⟩

def loadResult (fs : FileSystem) (path : Path) : Except InputError CompileResult :=
  match fs.read path with
  | .error _ => .error (.readResult path)
  | .ok text =>
    match CompileResult.ofJson text with
    | .error _ => .error (.parseResult path)
    | .ok r => .ok r

/-- Loads the recorded results in order. -/
def loadResults (fs : FileSystem) : List Path → Except InputError (List CompileResult)
  | [] => .ok []
  | p :: ps =>
    match loadResult fs p with
    | .error e => .error e
    | .ok r =>
      match loadResults fs ps with
      | .error e => .error e
      | .ok rs => .ok (r :: rs)

/-- What a command depends on besides its arguments and files. -/
structure Environment where
  /-- Where the configuration file would be, if there is a home directory. -/
  configPath : Option Path
  /-- What is found there. -/
  config : Option Body
  logVariable : Option String

def Environment.load (e : Environment) : Except ConfigError (Option ConfigFile) :=
  match e.configPath with
  | none => .ok none
  | some path => ConfigFile.load path e.config

/-- The settings in effect: those of a usable configuration, else the default ones. -/
def Environment.settings (e : Environment) : Settings :=
  match e.load with
  | .ok (some c) => c.settingsOrDefault
  | .ok none => .default
  | .error _ => .default

/-- What a command logs. -/
inductive LogEntry where
  /-- A configuration file is there and cannot be used. -/
  | unusableConfig (e : ConfigError)
  | replayed (report : Report)
  /-- The replay has made so many notices. -/
  | finished (count : Nat)
  deriving DecidableEq, Repr

namespace LogEntry

def level : LogEntry → Level
  | .unusableConfig _ => .warn
  | .replayed report => report.level
  | .finished _ => .info

/-- The text of an entry. -/
def message : LogEntry → String
  | .unusableConfig e => "Ignoring unusable config: " ++ e.message
  | .replayed report => report.message
  | .finished _ => "Replay finished"

def fields : LogEntry → List (String × FieldValue)
  | .unusableConfig e => [("path", .text e.path.text)]
  | .replayed report => report.fields
  | .finished count => [("count", .number count)]

end LogEntry

/-- A language of log filters. -/
structure FilterLanguage (Filter : Type) where
  /-- The filter a text stands for, if all of it is understood. -/
  parse? : String → Option Filter
  /-- The filter that the understood parts of a text stand for. -/
  parseSome : String → Filter
  /-- Whether an entry is shown. -/
  admits : Filter → LogEntry → Bool

/-- The configured log filter, if there is a usable configuration with one. -/
def Environment.configuredFilter (e : Environment) : Option String :=
  match e.load with
  | .ok (some c) => c.logFilter
  | .ok none => none
  | .error _ => none

/-- The log filter in effect: the variable's, else the configured one or that for `info`, and that
for `warn` when the configured one is not understood either. -/
def Environment.filter {Filter : Type} (language : FilterLanguage Filter) (e : Environment) :
    Filter :=
  match e.logVariable.bind language.parse? with
  | some filter => filter
  | none => (language.parse? (e.configuredFilter.getD "info")).getD (language.parseSome "warn")

/-- The warning about an unusable configuration. -/
def Environment.warnings (e : Environment) : List LogEntry :=
  match e.load with
  | .ok _ => []
  | .error error => [.unusableConfig error]

structure Ending where
  status : Nat
  /-- The lines on standard output. -/
  lines : List String
  /-- What is on standard output after the last line. -/
  rest : String
  error : Option String
  deriving DecidableEq, Repr

def linesOf (notices : List Notice) : List String := notices.map fun n => n.toJson.compact

/-- Lines as they are written, each with a line feed at its end. -/
def bytesOf (lines : List String) : ByteArray :=
  (String.join (lines.map fun line => line ++ "\n")).toUTF8

/-- What has been written of notices. -/
structure Written where
  lines : List String
  /-- The beginning of the notice that could not be written, if there was one. -/
  stub : Option String

/-- Writes notices, a line for each, up to the first that stops the writing. -/
def write (stops : Notice → Bool) : List Notice → Written
  | [] => ⟨[], none⟩
  | n :: ns =>
    if stops n then ⟨[], some n.opening⟩
    else
      let written := write stops ns
      ⟨n.toJson.compact :: written.lines, written.stub⟩

/-- How a command ends that has written so much. -/
def Written.ending (w : Written) : Ending :=
  match w.stub with
  | none => ⟨0, w.lines, "", none⟩
  | some stub => ⟨1, w.lines, stub, some "failed to encode event"⟩

/-- The bytes of all that is on standard output. -/
def Ending.output (e : Ending) : ByteArray := bytesOf e.lines ++ e.rest.toUTF8

/-- The files that results report diagnostics in. -/
def reportedFiles (results : List CompileResult) : List Path :=
  results.flatMap fun r => r.diagnostics.map fun d => d.location.file

namespace TextFile

/-- The name of the file beside those that results report diagnostics in. -/
def name (f : TextFile) (results : List CompileResult) : Path :=
  f.path.nameBeside (reportedFiles results)

/-- The file as the source of a replay. -/
def source (f : TextFile) (results : List CompileResult) : SourceFile :=
  .ofContent documentId (f.name results) f.text

/-- Whether a notice cannot be written because of the file's path. -/
def stops (f : TextFile) (results : List CompileResult) (n : Notice) : Bool :=
  match f.path with
  | .text _ => false
  | .garbled _ => n.mentions (f.name results)

end TextFile

/-- A replay and what is written of its notices. -/
def replay (settings : Settings) (fs : FileSystem) (source : Path) (results : List Path) :
    Except InputError (Replay × Written) :=
  match loadSource fs source with
  | .error e => .error e
  | .ok file =>
    match loadResults fs results with
    | .error e => .error e
    | .ok rs =>
      let r := Replay.whole settings (file.source rs) rs
      .ok (r, write (file.stops rs) r.notices)

/-- How a command ends and what it shows of its log. -/
structure Execution where
  ending : Ending
  log : List LogEntry
  deriving DecidableEq, Repr

/-- Runs a command line, with all that it logs. -/
def transcript (env : Environment) (fs : FileSystem) (args : List String) : Execution :=
  match parse args with
  | .misuse => ⟨⟨2, [], "", none⟩, []⟩
  | .help lines => ⟨⟨0, lines, "", none⟩, []⟩
  | .replay source results =>
    match replay env.settings fs source results with
    | .error e => ⟨⟨1, [], "", some e.message⟩, env.warnings⟩
    | .ok (r, written) =>
      ⟨written.ending, env.warnings ++ (r.log.map .replayed ++ [.finished r.notices.length])⟩

/-- Runs a command line. -/
def run (env : Environment) (fs : FileSystem) (args : List String) : Ending :=
  (transcript env fs args).ending

/-- Runs a command line and shows what the filter in effect admits of its log. -/
def execute {Filter : Type} (language : FilterLanguage Filter) (env : Environment)
    (fs : FileSystem) (args : List String) : Execution where
  ending := run env fs args
  log := (transcript env fs args).log.filter (language.admits (env.filter language))

def Request.files : Request → List Path
  | .replay source results => source :: results
  | .help _ | .misuse => []

end CommandLine

end DiagnosticRelay
