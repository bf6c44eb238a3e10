import DiagnosticRelay.DocumentId
import DiagnosticRelay.Compile.Messages

/-!
# Log entries

What the provider logs while it works. An entry is a cause with a level, a text and fields; a field
is a text or a number.
-/

namespace DiagnosticRelay

/-- Why a compile cycle published nothing. -/
inductive CycleError where
  /-- The compiler failed, with the causes from the outermost to the root. -/
  | compile (causes : List String)
  /-- No messages could be made of its result. -/
  | build (e : BuildError)
  deriving DecidableEq, Repr

def CycleError.message : CycleError → String
  | .compile causes => "compile failed: " ++ ": ".intercalate causes
  | .build e => e.message

/-- How grave a log entry is. -/
inductive Level where
  | debug
  | info
  | warn
  | error
  deriving DecidableEq, Repr

def Level.tag : Level → String
  | .debug => "DEBUG"
  | .info => "INFO"
  | .warn => "WARN"
  | .error => "ERROR"

inductive FieldValue where
  | text (s : String)
  | number (n : Nat)
  deriving DecidableEq, Repr

/-- A log entry. -/
inductive Report where
  /-- A document without a path was not compiled. -/
  | skippedUnsaved (id : DocumentId)
  /-- A destroyed document was not compiled. -/
  | skippedDestroyed (id : DocumentId)
  /-- A destroyed document is no longer tracked. -/
  | stoppedTracking (id : DocumentId)
  /-- The duration of a finished cycle was taken. -/
  | timed
  /-- A cycle published messages for so many files. -/
  | published (id : DocumentId) (files : Nat)
  /-- A cycle's result was not used. -/
  | discarded (id : DocumentId)
  | failed (id : DocumentId) (e : CycleError)
  /-- The provider was disposed of. -/
  | disposed
  /-- A cycle was handed to the host. -/
  | busy (label : String)
  /-- The grammar of a replayed file is not configured. -/
  | unconfiguredGrammar (grammar : String)
  deriving DecidableEq, Repr

namespace Report

def level : Report → Level
  | .failed .. => .error
  | .unconfiguredGrammar _ => .warn
  | .busy _ => .info
  | _ => .debug

/-- The text of an entry. -/
def message : Report → String
  | .skippedUnsaved _ => "Skipping diagnostics for unsaved document"
  | .skippedDestroyed _ => "Skipping diagnostics for destroyed document"
  | .stoppedTracking _ => "Stopped tracking destroyed document"
  | .timed => "timing"
  | .published .. => "Diagnostics published"
  | .discarded _ => "Diagnostics result discarded"
  | .failed _ e => "Clang diagnostics failed: " ++ e.message
  | .disposed => "Clang diagnostics provider disposed"
  | .busy label => label
  | .unconfiguredGrammar _ => "Source grammar is not configured for diagnostics"

/-- The event that timing entries are about. -/
def timedEvent : String := "clarion-diagnostics.fetch-diagnostics"

def fields : Report → List (String × FieldValue)
  | .skippedUnsaved id | .skippedDestroyed id | .stoppedTracking id | .discarded id
  | .failed id _ => [("document", .text id.text)]
  | .published id files => [("document", .text id.text), ("files", .number files)]
  | .timed => [("event", .text timedEvent)]
  | .unconfiguredGrammar grammar => [("grammar", .text grammar)]
  | .disposed | .busy _ => []

end Report

end DiagnosticRelay
