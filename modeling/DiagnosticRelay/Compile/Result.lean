import DiagnosticRelay.Path

/-!
# What a compiler reports

The result of one diagnostic pass over a document. A result whose flags are not accurate comes from
a pass with guessed build flags, so its diagnostics say nothing about the document.

Severities count from 0 (ignored) over 1 (note), 2 (warning) and 3 (error) to 4 (fatal). Rows and
columns are zero-based; a diagnostic about the file as a whole is on line -1, so a location's line
is signed, and explicit ranges are not.
-/

namespace DiagnosticRelay

/-- A row and column of an explicit range. -/
structure RangeEnd where
  line : UInt32
  column : UInt32
  deriving DecidableEq, Repr

/-- An explicit range of a diagnostic. -/
structure SourceRange where
  start : RangeEnd
  stop : RangeEnd
  deriving DecidableEq, Repr

/-- The place a diagnostic is reported at. -/
structure Location where
  file : Path
  line : Int64
  column : Int64
  deriving DecidableEq, Repr

structure Diagnostic where
  severity : UInt8
  location : Location
  ranges : Option (List SourceRange)
  spelling : String
  deriving DecidableEq, Repr

/-- The result of a diagnostic pass. -/
structure CompileResult where
  accurateFlags : Bool
  diagnostics : List Diagnostic
  deriving DecidableEq, Repr

end DiagnosticRelay
