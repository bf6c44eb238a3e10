import DiagnosticRelay.DocumentId
import DiagnosticRelay.Update

/-!
# The tracker

A compile of one document may report diagnostics in other files. The messages belong to the document
and have to be cleared when it is compiled again or closed, so the tracker records, for each
document, the paths its last compile published to. It also flags the documents whose destruction is
being watched.

The two maps are functions of the identity: what a tracker is, is what it answers for every
document, so operations on different documents commute as equations between trackers. No empty list
is ever recorded; recording one forgets the document's paths.
-/

namespace DiagnosticRelay

/-- What is known about documents. -/
structure Tracker where
  recorded : DocumentId → Option (List Path)
  isWatched : DocumentId → Bool

namespace Tracker

/-- The tracker that knows of no document. -/
def empty : Tracker := ⟨fun _ => none, fun _ => false⟩

instance : Inhabited Tracker := ⟨empty⟩

def setRecorded (t : Tracker) (d : DocumentId) (paths : Option (List Path)) : Tracker :=
  { t with recorded := fun e => if e = d then paths else t.recorded e }

def setWatched (t : Tracker) (d : DocumentId) (b : Bool) : Tracker :=
  { t with isWatched := fun e => if e = d then b else t.isWatched e }

@[simp] theorem recorded_setRecorded (t : Tracker) (d e : DocumentId) (paths : Option (List Path)) :
    (t.setRecorded d paths).recorded e = if e = d then paths else t.recorded e := rfl

@[simp] theorem isWatched_setRecorded (t : Tracker) (d : DocumentId) (paths : Option (List Path)) :
    (t.setRecorded d paths).isWatched = t.isWatched := rfl

@[simp] theorem recorded_setWatched (t : Tracker) (d : DocumentId) (b : Bool) :
    (t.setWatched d b).recorded = t.recorded := rfl

@[simp] theorem isWatched_setWatched (t : Tracker) (d e : DocumentId) (b : Bool) :
    (t.setWatched d b).isWatched e = if e = d then b else t.isWatched e := rfl

/-- Takes the recorded paths of a document as an invalidation; there is none without paths. -/
def invalidate (t : Tracker) (d : DocumentId) : Option Invalidation × Tracker :=
  match t.recorded d with
  | none => (none, t)
  | some [] => (none, t.setRecorded d none)
  | some (p :: ps) => (some ⟨p :: ps⟩, t.setRecorded d none)

/-- Replaces the recorded paths of a document. A path that comes again, in any spelling, counts
once. -/
def record (t : Tracker) (d : DocumentId) (paths : List Path) : Tracker :=
  match Path.firstSpellings paths with
  | [] => t.setRecorded d none
  | p :: ps => t.setRecorded d (some (p :: ps))

/-- Takes the recorded paths as an invalidation and forgets the document. -/
def forget (t : Tracker) (d : DocumentId) : Option Invalidation × Tracker :=
  let (invalidation, t) := t.invalidate d
  (invalidation, t.setWatched d false)

/-- Flags a document as watched. Says whether the flag is new. -/
def watch (t : Tracker) (d : DocumentId) : Bool × Tracker :=
  (! t.isWatched d, t.setWatched d true)

/-- Forgets every document. -/
def clear (_ : Tracker) : Tracker := empty

end Tracker

end DiagnosticRelay
