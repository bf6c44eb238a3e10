import DiagnosticRelay.DocumentId
import DiagnosticRelay.Compile.Messages

/-!
# Open documents

A document as the host keeps it. Everything but its identity may change while it is open. Watches
registered on it are called when it is destroyed; each has a key of its own, so that it can be taken
back before that.
-/

namespace DiagnosticRelay

inductive DocumentEvent where
  | opened
  | grammarChanged
  | activated
  | saved
  deriving DecidableEq, Repr

/-- A watch on the destruction of a document, in the name of an identity. -/
structure Watch where
  key : Nat
  id : DocumentId
  deriving DecidableEq, Repr

structure Document where
  id : DocumentId
  /-- Where the document is on disk; none if it has never been saved. -/
  path : Option Path
  title : String
  grammar : String
  lines : LineLengths
  isDestroyed : Bool
  /-- The watches on its destruction, in the order they were registered. -/
  watches : List Watch
  deriving DecidableEq, Repr

namespace Document

def watch (d : Document) (w : Watch) : Document := { d with watches := d.watches ++ [w] }

/-- The document without the watch of a key. -/
def unwatch (d : Document) (key : Nat) : Document :=
  { d with watches := d.watches.filter fun w => w.key ≠ key }

/-- The document destroyed; its watches are taken. -/
def destroy (d : Document) : Document := { d with isDestroyed := true, watches := [] }

end Document

/-- The position of a document in the host's list. Two documents may share an identity. -/
abbrev DocumentIndex := Nat

end DiagnosticRelay
