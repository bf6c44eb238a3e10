/-!
# Document identities

A host gives every open document an identity. Everything that is kept per document is keyed by it.
-/

namespace DiagnosticRelay

/-- The identity of a document, a 64-bit word. -/
structure DocumentId where
  value : UInt64
  deriving DecidableEq, Repr, Inhabited

/-- Written `doc#` and the number. -/
def DocumentId.text (d : DocumentId) : String := s!"doc#{d.value}"

end DiagnosticRelay
