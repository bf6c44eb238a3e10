import DiagnosticRelay.Path
import DiagnosticRelay.Span
import DiagnosticRelay.Json.Value

/-!
# Messages

A message is one published diagnostic: who reports it, whether it is a warning or an error, the file
it belongs to, its text and the span it marks. Every message is scoped to its file; there is no
wider scope, so the scope is only a word in what is written.
-/

namespace DiagnosticRelay

/-- How grave a message is. Graver kinds come later. -/
inductive MessageKind where
  | warning
  | error
  deriving DecidableEq, Repr

namespace MessageKind

/-- The kind of a compiler's numeric severity: 2 is a warning and everything above an error. Notes
and ignored diagnostics, below 2, are never published. -/
def ofSeverity? (severity : UInt8) : Option MessageKind :=
  if severity < 2 then none else if severity = 2 then some .warning else some .error

theorem ofSeverity?_eq_none_iff {severity : UInt8} :
    ofSeverity? severity = none ↔ severity < 2 := by
  unfold ofSeverity?
  split
  · simp_all
  · split <;> simp_all

/-- The word for a kind in a displayed line. -/
def label : MessageKind → String
  | .warning => "warning"
  | .error => "error"

/-- The word for a kind in written messages. -/
def tag : MessageKind → String
  | .warning => "Warning"
  | .error => "Error"

end MessageKind

/-- The word for what messages and invalidations apply to. -/
def fileScope : String := "file"

/-- A diagnostic attached to a file. -/
structure Message where
  provider : String
  kind : MessageKind
  path : Path
  text : String
  span : Span
  deriving DecidableEq, Repr

def Position.toJson (p : Position) : Json.Value :=
  .record [("row", .number p.row.toNat), ("column", .number p.column.toNat)]

def Span.toJson (s : Span) : Json.Value :=
  .record [("start", s.start.toJson), ("end", s.stop.toJson)]

namespace Message

/-- The message on one line, with positions counted from one. -/
def displayLine (m : Message) : String :=
  s!"{m.path.text}:{m.span.start.row.toNat + 1}:{m.span.start.column.toNat + 1}: " ++
    s!"{m.kind.label}: [{m.provider}] {m.text}"

def toJson (m : Message) : Json.Value :=
  .record [("scope", .text fileScope), ("providerName", .text m.provider),
    ("type", .text m.kind.tag), ("filePath", .text m.path.text), ("text", .text m.text),
    ("range", m.span.toJson)]

end Message

end DiagnosticRelay
