import DiagnosticRelay.Span
import DiagnosticRelay.DocumentId
import DiagnosticRelay.Json.Decoder

/-!
# Decoding positions, spans and identities

The shapes of the records that positions and spans are written as. An identity is written as its
number.
-/

namespace DiagnosticRelay

open Json

namespace Position

/-- The fields of a position, as far as read. -/
structure Partial where
  row : Option UInt32
  column : Option UInt32

def shape : Shape Partial Position where
  name := "struct Point"
  fields := [
    ⟨"row", fun p => p.row.isSome, fun p cs => do
      let (n, rest) ← uint32 cs
      .ok ({ p with row := some n }, rest), false⟩,
    ⟨"column", fun p => p.column.isSome, fun p cs => do
      let (n, rest) ← uint32 cs
      .ok ({ p with column := some n }, rest), false⟩]
  start := ⟨none, none⟩
  finish p := do
    let row ← required "row" p.row
    let column ← required "column" p.column
    .ok ⟨row, column⟩

def ofJson (text : String) : Except Json.Error Position := decode shape.read text

end Position

namespace Span

/-- The fields of a span, as far as read. -/
structure Partial where
  start : Option Position
  stop : Option Position

def shape : Shape Partial Span where
  name := "struct Range"
  fields := [
    ⟨"start", fun p => p.start.isSome, fun p cs => do
      let (x, rest) ← Position.shape.read cs
      .ok ({ p with start := some x }, rest), false⟩,
    ⟨"end", fun p => p.stop.isSome, fun p cs => do
      let (x, rest) ← Position.shape.read cs
      .ok ({ p with stop := some x }, rest), false⟩]
  start := ⟨none, none⟩
  finish p := do
    let start ← required "start" p.start
    let stop ← required "end" p.stop
    .ok ⟨start, stop⟩

def ofJson (text : String) : Except Json.Error Span := decode shape.read text

end Span

/-- The identity a JSON text stands for. -/
def DocumentId.ofJson (text : String) : Except Json.Error DocumentId := do
  let n ← decode uint64 text
  .ok ⟨n⟩

end DiagnosticRelay
