/-!
# Positions and spans

Zero-based coordinates of a document. Positions are ordered row by row. A span runs from its start
up to, and not including, its stop; one that stops where it starts, or earlier, is empty. Nothing
forbids such a span: a compiler's explicit range is published as it was reported.
-/

namespace DiagnosticRelay

/-- A zero-based row and column. -/
structure Position where
  row : UInt32
  column : UInt32
  deriving DecidableEq, Repr, Inhabited

namespace Position

/-- Row by row, and by column within a row. -/
instance : Ord Position where
  compare p q := (compare p.row q.row).then (compare p.column q.column)

instance : LE Position where
  le p q := p.row < q.row ∨ p.row = q.row ∧ p.column ≤ q.column

instance (p q : Position) : Decidable (p ≤ q) :=
  inferInstanceAs (Decidable (p.row < q.row ∨ p.row = q.row ∧ p.column ≤ q.column))

/-- Written `(row,column)`. -/
def text (p : Position) : String := s!"({p.row},{p.column})"

/-- The positions in ascending order. -/
def sorted (ps : List Position) : List Position :=
  ps.mergeSort fun p q => decide (p ≤ q)

/-- The greatest of the positions, if there are any. -/
def greatest? : List Position → Option Position
  | [] => none
  | p :: ps => some (ps.foldl (fun best q => if best ≤ q then q else best) p)

end Position

/-- The stretch of a document from `start` up to `stop`. -/
structure Span where
  start : Position
  stop : Position
  deriving DecidableEq, Repr, Inhabited

namespace Span

/-- The span between two rows and columns. -/
def ofCoordinates (startRow startColumn stopRow stopColumn : UInt32) : Span :=
  ⟨⟨startRow, startColumn⟩, ⟨stopRow, stopColumn⟩⟩

/-- A span is empty when it stops where it starts or before. -/
def IsEmpty (s : Span) : Prop := s.stop ≤ s.start

instance (s : Span) : Decidable s.IsEmpty := inferInstanceAs (Decidable (s.stop ≤ s.start))

/-- A span is of a single line when it starts and stops on the same row. -/
def IsSingleLine (s : Span) : Prop := s.start.row = s.stop.row

instance (s : Span) : Decidable s.IsSingleLine :=
  inferInstanceAs (Decidable (s.start.row = s.stop.row))

/-- Written `(row,column)-(row,column)`. -/
def text (s : Span) : String := s.start.text ++ "-" ++ s.stop.text

end Span

end DiagnosticRelay
