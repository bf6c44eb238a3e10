import DiagnosticRelay.Listeners
import DiagnosticRelay.Provider.Document
import DiagnosticRelay.Provider.Report
import DiagnosticRelay.Settings
import DiagnosticRelay.Tracker

/-!
# The provider and what surrounds it

The provider turns triggers into compile cycles and their results into notices. Three parties take
part: the host, which keeps the documents, triggers cycles and polls them; the compiler; and the
listeners. Everything runs on one thread, but a listener, and the compiler when it is asked, may in
turn do whatever the host may do, polling other cycles included. So a `Configuration` holds, beside
the provider's own state and the host's documents, a stack of `Frame`s: the work in progress,
innermost first.

Two kinds of frames are callouts, in which somebody else runs: a listener is being called, or the
compiler is being asked for the result of a cycle. A configuration at rest has a callout on top or
no frame at all; whoever is running then makes the next `Move`.

The provider's state lives as long as the host holds its handle, a cycle is pending or work of its
own is in progress. When the last of these goes, the watches it still has on documents go with it.
-/

namespace DiagnosticRelay

/-- What a compile came to. -/
inductive Outcome where
  /-- The compiler failed, with the causes from the outermost to the root. -/
  | failed (causes : List String)
  /-- The compiler has no result. -/
  | nothing
  | result (r : CompileResult)
  deriving DecidableEq, Repr

/-- A compile cycle: the document to compile and whether the compiler has been asked already. -/
structure Cycle where
  number : Nat
  document : DocumentIndex
  id : DocumentId
  isStarted : Bool
  deriving DecidableEq, Repr

/-- A watch that the provider has on a document. -/
structure WatchRef where
  document : DocumentIndex
  key : Nat
  deriving DecidableEq, Repr

/-- The provider's own state. -/
structure Provider where
  settings : Settings
  listeners : Listeners Unit
  tracker : Tracker
  /-- The watch that is kept in the name of an identity. -/
  watches : DocumentId → Option WatchRef
  isDisposed : Bool

/-- Who publishes: a cycle, or the destruction of a document. -/
inductive Source where
  | cycle (number : Nat) (id : DocumentId)
  | destruction (id : DocumentId)
  deriving DecidableEq, Repr

/-- A piece of work in progress. -/
inductive Frame where
  /-- Callout: a listener is being called. -/
  | calling (listener : ListenerId) (notice : Notice)
  /-- Callout: the compiler is being asked for the result of a cycle, which goes back to the place
  it was polled from when there is none yet. -/
  | asking (cycle : Cycle) (place : Nat)
  /-- The listeners that wait for a notice. -/
  | delivering (notice : Notice) (waiting : List ListenerId)
  /-- A cycle publishes its update next. -/
  | updating (cycle : Cycle) (update : Update)
  /-- A cycle records the paths of its update next. -/
  | recording (cycle : Cycle) (update : Update)
  /-- A cycle that published for so many files logs its end next. -/
  | finishing (cycle : Cycle) (files : Nat)
  /-- The watch of a destroyed document is let go next. -/
  | forgetting (id : DocumentId)
  /-- The watches of a destroyed document that are still to be called. -/
  | destroying (watches : List Watch)
  /-- A document that has just been watched is compiled next. -/
  | attaching (document : DocumentIndex) (id : DocumentId) (key : Nat)

namespace Frame

/-- Whether somebody else runs while the frame is on top. -/
def isCallout : Frame → Bool
  | .calling .. | .asking .. => true
  | _ => false

/-- Whether the frame keeps the provider's state alive. -/
def keepsAlive : Frame → Bool
  | .asking .. | .updating .. | .recording .. | .finishing .. | .forgetting _ | .attaching .. =>
    true
  | .calling .. | .delivering .. | .destroying _ => false

end Frame

/-- The provider, the host's documents and the work in progress. -/
structure Configuration where
  provider : Provider
  documents : List Document
  active : Option DocumentIndex
  /-- Whether the host still holds the provider's handle. -/
  isHandleHeld : Bool
  /-- The cycles that are waiting to be polled. -/
  pending : List Cycle
  nextCycle : Nat
  nextKey : Nat
  stack : List Frame

/-- What a run shows. -/
inductive Event where
  /-- A listener was registered; none after disposing. -/
  | registered (id : Option ListenerId)
  /-- A cycle was handed to the host under a label. -/
  | started (cycle : Nat) (id : DocumentId) (label : String)
  /-- The compiler is asked for the result of a cycle, to begin with or again. -/
  | asked (cycle : Nat) (id : DocumentId) (isFirst : Bool)
  | published (source : Source) (notice : Notice)
  | called (listener : ListenerId) (notice : Notice)
  | logged (r : Report)
  deriving DecidableEq, Repr

/-- A change of an open document. -/
inductive Edit where
  | path (p : Option Path)
  | title (t : String)
  | grammar (g : String)
  | lines (l : LineLengths)
  deriving DecidableEq, Repr

/-- The document after a change. -/
def Document.edit (d : Document) : Edit → Document
  | .path path => { d with path }
  | .title title => { d with title }
  | .grammar grammar => { d with grammar }
  | .lines lines => { d with lines }

/-- What may be done by whoever is running. -/
inductive Move where
  | run (document : DocumentIndex)
  /-- Tell the provider what happened to a document. -/
  | event (document : DocumentIndex) (e : DocumentEvent)
  | listen (channel : Channel)
  | release (id : ListenerId)
  /-- Poll the cycle at a place of the queue. -/
  | poll (place : Nat)
  /-- Drop the cycle at a place of the queue unfinished. -/
  | abandon (place : Nat)
  | openDocument (d : Document)
  | destroy (document : DocumentIndex)
  | edit (document : DocumentIndex) (e : Edit)
  | focus (document : Option DocumentIndex)
  | dispose
  /-- Drop the host's handle. -/
  | dropHandle
  /-- The called listener returns. -/
  | returns
  /-- The asked compiler answers, with nothing as long as it is busy. -/
  | answers (outcome : Option Outcome)
  deriving DecidableEq, Repr

namespace Provider

/-- A provider nobody has used. -/
def new (settings : Settings) : Provider := ⟨settings, .empty, .empty, fun _ => none, false⟩

/-- The provider with another watch in the name of an identity. -/
def setWatch (p : Provider) (id : DocumentId) (ref : Option WatchRef) : Provider :=
  { p with watches := fun e => if e = id then ref else p.watches e }

/-- The paths that carry messages of a document's last compile. -/
def trackedPaths (p : Provider) (id : DocumentId) : List Path := (p.tracker.recorded id).getD []

end Provider

namespace Configuration

/-- A provider nobody has used, before a list of documents. -/
def new (settings : Settings) (documents : List Document) : Configuration :=
  ⟨.new settings, documents, none, true, [], 0, 0, []⟩

/-- Whether no work is in progress. -/
def isIdle (c : Configuration) : Bool := c.stack.isEmpty

/-- The frames in which somebody else runs, innermost first. -/
def callouts (c : Configuration) : List Frame := c.stack.filter Frame.isCallout

/-- Whether the provider's state is kept alive. -/
def isAlive (c : Configuration) : Bool :=
  c.isHandleHeld || ! c.pending.isEmpty || c.stack.any Frame.keepsAlive

end Configuration

end DiagnosticRelay
