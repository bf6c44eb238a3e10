import DiagnosticRelay.Compile.Result
import DiagnosticRelay.Json.Decoder

/-!
# Decoding compile results

The shapes of the records a compile result is made of. The list of diagnostics, a location's column
and a diagnostic's ranges may be left out; ranges may also be null. A shape reads into the options
of its record's fields, so a field is read when its option is filled.
-/

namespace DiagnosticRelay

open Json

namespace RangeEnd

/-- The fields of a range end, as far as read. -/
structure Partial where
  line : Option UInt32
  column : Option UInt32

def shape : Shape Partial RangeEnd where
  name := "struct ClangPosition"
  fields := [
    ⟨"line", fun p => p.line.isSome, fun p cs => do
      let (n, rest) ← uint32 cs
      .ok ({ p with line := some n }, rest), false⟩,
    ⟨"column", fun p => p.column.isSome, fun p cs => do
      let (n, rest) ← uint32 cs
      .ok ({ p with column := some n }, rest), false⟩]
  start := ⟨none, none⟩
  finish p := do
    let line ← required "line" p.line
    let column ← required "column" p.column
    .ok ⟨line, column⟩

end RangeEnd

namespace SourceRange

/-- The fields of a range, as far as read. -/
structure Partial where
  start : Option RangeEnd
  stop : Option RangeEnd

def shape : Shape Partial SourceRange where
  name := "struct ClangSourceRange"
  fields := [
    ⟨"start", fun p => p.start.isSome, fun p cs => do
      let (x, rest) ← RangeEnd.shape.read cs
      .ok ({ p with start := some x }, rest), false⟩,
    ⟨"end", fun p => p.stop.isSome, fun p cs => do
      let (x, rest) ← RangeEnd.shape.read cs
      .ok ({ p with stop := some x }, rest), false⟩]
  start := ⟨none, none⟩
  finish p := do
    let start ← required "start" p.start
    let stop ← required "end" p.stop
    .ok ⟨start, stop⟩

end SourceRange

namespace Location

/-- The fields of a location, as far as read. -/
structure Partial where
  file : Option Path
  line : Option Int64
  column : Option Int64

def shape : Shape Partial Location where
  name := "struct ClangLocation"
  fields := [
    ⟨"file", fun p => p.file.isSome, fun p cs => do
      let (s, rest) ← textAs "path string" cs
      .ok ({ p with file := some ⟨s⟩ }, rest), false⟩,
    ⟨"line", fun p => p.line.isSome, fun p cs => do
      let (n, rest) ← int64 cs
      .ok ({ p with line := some n }, rest), false⟩,
    ⟨"column", fun p => p.column.isSome, fun p cs => do
      let (n, rest) ← int64 cs
      .ok ({ p with column := some n }, rest), true⟩]
  start := ⟨none, none, none⟩
  finish p := do
    let file ← required "file" p.file
    let line ← required "line" p.line
    .ok ⟨file, line, p.column.getD 0⟩

end Location

namespace Diagnostic

/-- The fields of a diagnostic, as far as read. -/
structure Partial where
  severity : Option UInt8
  location : Option Location
  ranges : Option (Option (List SourceRange))
  spelling : Option String

def shape : Shape Partial Diagnostic where
  name := "struct ClangDiagnostic"
  fields := [
    ⟨"severity", fun p => p.severity.isSome, fun p cs => do
      let (n, rest) ← uint8 cs
      .ok ({ p with severity := some n }, rest), false⟩,
    ⟨"location", fun p => p.location.isSome, fun p cs => do
      let (x, rest) ← Location.shape.read cs
      .ok ({ p with location := some x }, rest), false⟩,
    ⟨"ranges", fun p => p.ranges.isSome, fun p cs => do
      let (x, rest) ← optional (list SourceRange.shape.read) cs
      .ok ({ p with ranges := some x }, rest), true⟩,
    ⟨"spelling", fun p => p.spelling.isSome, fun p cs => do
      let (s, rest) ← textAs "a string" cs
      .ok ({ p with spelling := some s }, rest), false⟩]
  start := ⟨none, none, none, none⟩
  finish p := do
    let severity ← required "severity" p.severity
    let location ← required "location" p.location
    let spelling ← required "spelling" p.spelling
    .ok ⟨severity, location, p.ranges.getD none, spelling⟩

end Diagnostic

namespace CompileResult

/-- The fields of a result, as far as read. -/
structure Partial where
  accurateFlags : Option Bool
  diagnostics : Option (List Diagnostic)

def shape : Shape Partial CompileResult where
  name := "struct ClangCompileResult"
  fields := [
    ⟨"accurateFlags", fun p => p.accurateFlags.isSome, fun p cs => do
      let (b, rest) ← bool cs
      .ok ({ p with accurateFlags := some b }, rest), false⟩,
    ⟨"diagnostics", fun p => p.diagnostics.isSome, fun p cs => do
      let (x, rest) ← list Diagnostic.shape.read cs
      .ok ({ p with diagnostics := some x }, rest), true⟩]
  start := ⟨none, none⟩
  finish p := do
    let accurateFlags ← required "accurateFlags" p.accurateFlags
    .ok ⟨accurateFlags, p.diagnostics.getD []⟩

def ofJson (text : String) : Except Json.Error CompileResult := decode shape.read text

end CompileResult

end DiagnosticRelay
