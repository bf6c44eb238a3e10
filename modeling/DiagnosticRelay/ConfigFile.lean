import DiagnosticRelay.Files
import DiagnosticRelay.Settings
import DiagnosticRelay.Toml.Document

/-!
# The configuration file

A TOML file with two sections, both optional: `diagnostics` holds the settings of the diagnostics
and `log` the filter for log output. A setting left out has its default, unknown keys are skipped,
and no file at all is no error. A section may also be written as a list of its values in declared
order, and a moment counts as a section that gives nothing.

A file that is there but cannot be used is an error that carries the file's path: `read` when it has
no text and `parse` when its text is not TOML or a known key has a value of the wrong kind. A file
counts as not there when it cannot be looked at, as below a directory that may not be searched.

What is TOML is decided by `Toml.parse?`, whose grammar has limits of its own: values nest at most
`Toml.nestingLimit` deep, and a key has at most `Toml.partLimit` parts. A text beyond these limits
is not TOML, even where the value in question belongs to a key that would be skipped; so is one with
a number that is out of range there (`othersAreReadable`).
-/

namespace DiagnosticRelay

structure LogSettings where
  filter : Option String
  deriving DecidableEq, Repr

structure ConfigFile where
  diagnostics : Option Settings
  log : Option LogSettings
  deriving DecidableEq, Repr

/-- Why a configuration file cannot be used. -/
inductive ConfigError where
  | read (path : Path) (reason : ReadFailure)
  | parse (path : Path)
  deriving DecidableEq, Repr

namespace ConfigError

def path : ConfigError → Path
  | .read path _ => path
  | .parse path => path

/-- The wording of an error. The parser's own words are not kept. -/
def message : ConfigError → String
  | .read path reason => s!"failed to read config at {path.text}: {reason.message}"
  | .parse path => s!"failed to parse config at {path.text}"

end ConfigError

namespace ConfigFile

open Toml

/-- The configuration without sections. -/
def empty : ConfigFile := ⟨none, none⟩

/-- The settings of the diagnostics, by default when there is no section. -/
def settingsOrDefault (c : ConfigFile) : Settings := c.diagnostics.getD .default

/-- The filter for log output, if one is given. -/
def logFilter (c : ConfigFile) : Option String := c.log.bind LogSettings.filter

def text? : Tree → Option String
  | .scalar (.text s) => some s
  | _ => none

def truth? : Tree → Option Bool
  | .scalar (.truth b) => some b
  | _ => none

def texts? : Tree → Option (List String)
  | .list items => items.mapM text?
  | _ => none

/-- An optional field that has to be of its kind when it is there. -/
def optional {α : Type} (read : Tree → Option α) : Option Tree → Option (Option α)
  | none => some none
  | some t => do some (some (← read t))

/-- Whether the fields that nobody asks for can all be skipped. -/
def othersAreReadable (known : List String) (fields : Fields) : Bool :=
  fieldsAreReadable (fields.filter fun entry => ! known.contains entry.1)

/-- The settings of the diagnostics in a section. -/
def settings? : Tree → Option Settings
  | .table _ fields =>
    if othersAreReadable ["grammar_scopes", "run_on_save"] fields then do
      let scopes ← optional texts? (Fields.get? fields "grammar_scopes")
      let runOnSave ← optional truth? (Fields.get? fields "run_on_save")
      some (Settings.Partial.fill ⟨scopes, runOnSave⟩)
    else none
  | .list items => do
    let scopes ← optional texts? items[0]?
    let runOnSave ← optional truth? items[1]?
    some (Settings.Partial.fill ⟨scopes, runOnSave⟩)
  | .scalar .moment => some (Settings.Partial.fill ⟨none, none⟩)
  | _ => none

/-- The settings of log output in a section. A list has to hold the filter. -/
def logSettings? : Tree → Option LogSettings
  | .table _ fields =>
    if othersAreReadable ["filter"] fields then do
      some ⟨← optional text? (Fields.get? fields "filter")⟩
    else none
  | .list (t :: _) => do some ⟨some (← text? t)⟩
  | .scalar .moment => some ⟨none⟩
  | _ => none

def ofFields? (fields : Fields) : Option ConfigFile :=
  if othersAreReadable ["diagnostics", "log"] fields then do
    let diagnostics ← optional settings? (Fields.get? fields "diagnostics")
    let log ← optional logSettings? (Fields.get? fields "log")
    some ⟨diagnostics, log⟩
  else none

def ofToml? (text : String) : Option ConfigFile := do ofFields? (← Toml.parse? text)

/-- Loads the file at a path, given what is there; nothing that can be seen there is no
configuration. -/
def load (path : Path) : Option Body → Except ConfigError (Option ConfigFile)
  | none => .ok none
  | some body =>
    if ! body.isSeen then .ok none
    else
      match body.text with
      | .error reason => .error (.read path reason)
      | .ok text =>
        match ofToml? text with
        | some c => .ok (some c)
        | none => .error (.parse path)

/-- What is loaded of bytes. -/
theorem load_bytes (path : Path) (content : ByteArray) :
    load path (some (.bytes content)) = match String.fromUTF8? content with
      | none => .error (.read path .notText)
      | some text =>
        match ofToml? text with
        | some c => .ok (some c)
        | none => .error (.parse path) := by
  have hseen : (Body.bytes content).isSeen = true := rfl
  rw [load, hseen, Body.text]
  cases String.fromUTF8? content <;> rfl

/-- Where the configuration file of a home directory is. -/
def pathBelow (home : Path) : Path := (home.join ".clarion").join "config.toml"

/-- Where the configuration file is for a value of the home variable. An empty one names no home. -/
def path? (home : Option String) : Option Path :=
  match home with
  | none => none
  | some home => if home.isEmpty then none else some (pathBelow ⟨home⟩)

end ConfigFile

end DiagnosticRelay
