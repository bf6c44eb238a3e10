import DiagnosticRelay.Provider.Configuration

/-!
# The provider's work

What the provider does between two callouts. `advance` performs one piece of work, the frame on top
of the stack, and is `none` when somebody else has to move. `settle` advances until then. A piece of
work may put others in its place, but only lighter ones, so the `weight` of the stack bounds the
pieces and settling ends.

A cycle whose result has arrived invalidates the paths recorded for its document, publishes its
update, and records the update's paths, in this order, with the listeners called in between. When
the document is no longer watched by then, its paths are invalidated instead of recorded: the
handler of its destruction ran before there was anything to clear.
-/

namespace DiagnosticRelay.Configuration

def push (c : Configuration) (f : Frame) : Configuration := { c with stack := f :: c.stack }

def setTracker (c : Configuration) (tracker : Tracker) : Configuration :=
  { c with provider := { c.provider with tracker } }

def updateDocument (c : Configuration) (i : DocumentIndex) (f : Document → Document) :
    Configuration :=
  { c with documents := c.documents.modify i f }

/-- Takes back the watch in the name of an identity. -/
def releaseWatch (c : Configuration) (id : DocumentId) : Configuration :=
  match c.provider.watches id with
  | none => c
  | some ref =>
    { c.updateDocument ref.document (·.unwatch ref.key) with
      provider := c.provider.setWatch id none }

/-- Takes back every watch. A document keeps the watches that are not the provider's. -/
def releaseWatches (c : Configuration) : Configuration :=
  let isOurs (i : DocumentIndex) (w : Watch) : Bool := c.provider.watches w.id = some ⟨i, w.key⟩
  { c with
    documents := c.documents.mapIdx fun i d =>
      { d with watches := d.watches.filter fun w => ! isOurs i w }
    provider := { c.provider with watches := fun _ => none } }

/-- Takes back every watch once nothing keeps the provider's state alive. -/
def reap (c : Configuration) : Configuration := if c.isAlive then c else c.releaseWatches

/-- Publishes a notice to the listeners registered now. -/
def publish (c : Configuration) (source : Source) (notice : Notice) : Configuration × List Event :=
  (c.push (.delivering notice ((c.provider.listeners.on notice.channel).map Prod.fst)),
    [.published source notice])

def publishSome (c : Configuration) (source : Source) : Option Invalidation →
    Configuration × List Event
  | none => (c, [])
  | some i => c.publish source (.invalidation i)

/-- Hands a new cycle for a document to the host. -/
def startCycle (c : Configuration) (i : DocumentIndex) (d : Document) :
    Configuration × List Event :=
  ({ c with
      pending := c.pending ++ [⟨c.nextCycle, i, d.id, false⟩]
      nextCycle := c.nextCycle + 1 },
    [.started c.nextCycle d.id s!"Clang: compiling `{d.title}`"])

/-- Forgets a destroyed document: its paths are invalidated, then its watch is let go. -/
def forgetDocument (c : Configuration) (id : DocumentId) : Configuration × List Event :=
  let (invalidation, tracker) := c.provider.tracker.forget id
  ((c.setTracker tracker).push (.forgetting id)).publishSome (.destruction id) invalidation

/-- Compiles a document, unless the provider is disposed of or the document has no path. The first
time, a watch is registered on it; a document that is destroyed already calls the watch at once. -/
def trigger (c : Configuration) (i : DocumentIndex) : Configuration × List Event :=
  match c.documents[i]? with
  | none => (c, [])
  | some d =>
    if c.provider.isDisposed then (c, [])
    else if d.path.isNone then (c, [.logged (.skippedUnsaved d.id)])
    else
      match c.provider.tracker.watch d.id with
      | (false, _) => c.startCycle i d
      | (true, tracker) =>
        let c := { c.setTracker tracker with nextKey := c.nextKey + 1 }
        let attached := c.push (.attaching i d.id (c.nextKey - 1))
        if d.isDestroyed then attached.forgetDocument d.id
        else (attached.updateDocument i (·.watch ⟨c.nextKey - 1, d.id⟩), [])

/-- What a finished cycle logs. -/
def finished (r : Report) : List Event := [.logged .timed, .logged r]

/-- Takes the compiler's answer for a cycle. Only a result for a document that is still watched, and
of which messages can be made, goes on to be published. -/
def receive (c : Configuration) (cycle : Cycle) : Outcome → Configuration × List Event
  | .failed causes => (c, finished (.failed cycle.id (.compile causes)))
  | .nothing => (c, finished (.discarded cycle.id))
  | .result r =>
    if c.provider.isDisposed || ! c.provider.tracker.isWatched cycle.id then
      (c, finished (.discarded cycle.id))
    else
      match c.documents[cycle.document]? with
      | none => (c, finished (.discarded cycle.id))
      | some d =>
        match messagesOf r d.path d.lines with
        | .error e => (c, finished (.failed cycle.id (.build e)))
        | .ok update =>
          let (invalidation, tracker) := c.provider.tracker.invalidate cycle.id
          ((c.setTracker tracker).push (.updating cycle update)).publishSome
            (.cycle cycle.number cycle.id) invalidation

/-- Keeps the paths of a published update, or clears them when the document is gone. -/
def keepPaths (c : Configuration) (cycle : Cycle) (update : Update) : Configuration × List Event :=
  let c' := c.push (.finishing cycle update.paths.length)
  if c.provider.tracker.isWatched cycle.id then
    (c'.setTracker (c.provider.tracker.record cycle.id update.paths), [])
  else if update.paths.isEmpty then (c', [])
  else c'.publish (.cycle cycle.number cycle.id) (.invalidation ⟨update.paths⟩)

/-- Compiles a document whose watch has been registered, unless the watch has been called already.
-/
def attach (c : Configuration) (i : DocumentIndex) (id : DocumentId) (key : Nat) :
    Configuration × List Event :=
  if c.provider.tracker.isWatched id then
    let c := c.releaseWatch id
    let c := { c with provider := c.provider.setWatch id (some ⟨i, key⟩) }
    match c.documents[i]? with
    | none => (c, [])
    | some d => c.startCycle i d
  else (c, [.logged (.skippedDestroyed id)])

/-- One piece of work; none when somebody else has to move. -/
def advance (c : Configuration) : Option (Configuration × List Event) :=
  match c.stack with
  | [] => none
  | f :: stack =>
    let below := { c with stack }
    match f with
    | .calling .. | .asking .. => none
    | .delivering _ [] => some (below, [])
    | .delivering notice (id :: waiting) =>
      some ((below.push (.delivering notice waiting)).push (.calling id notice),
        [.called id notice])
    | .updating cycle update =>
      some ((below.push (.recording cycle update)).publish (.cycle cycle.number cycle.id)
        (.update update))
    | .recording cycle update => some (below.keepPaths cycle update)
    | .finishing cycle files => some (below, finished (.published cycle.id files))
    | .forgetting id => some (below.releaseWatch id, [.logged (.stoppedTracking id)])
    | .destroying [] => some (below, [])
    | .destroying (w :: watches) =>
      let below := below.push (.destroying watches)
      if below.isAlive then some (below.forgetDocument w.id) else some (below, [])
    | .attaching i id key => some (below.attach i id key)

/-- A bound on the pieces of work that a frame stands for. -/
def frameWeight : Frame → Nat
  | .calling .. | .asking .. => 0
  | .delivering .. | .finishing .. | .forgetting _ | .attaching .. => 1
  | .recording .. => 3
  | .updating .. => 5
  | .destroying watches => 1 + 3 * watches.length

/-- A bound on the pieces of work of a stack. -/
def weight (stack : List Frame) : Nat := stack.foldr (fun f n => frameWeight f + n) 0

/-- Advances at most so many times. -/
def settleWithin : Nat → Configuration → Configuration × List Event
  | 0, c => (c, [])
  | n + 1, c =>
    match c.advance with
    | none => (c, [])
    | some (c, shown) =>
      let (c, more) := settleWithin n c
      (c, shown ++ more)

/-- Advances until somebody else has to move. -/
def settle (c : Configuration) : Configuration × List Event := settleWithin (weight c.stack) c

/-- What a move does at once, before the work it starts. A move that is not possible does nothing.
-/
def begin (c : Configuration) : Move → Configuration × List Event
  | .run i => if c.isHandleHeld then c.trigger i else (c, [])
  | .event i e =>
    match c.documents[i]? with
    | none => (c, [])
    | some d =>
      if ! c.isHandleHeld || (e = .saved && ! c.provider.settings.runOnSave) ||
          ! c.provider.settings.handles d.grammar then (c, [])
      else c.trigger i
  | .listen channel =>
    if ! c.isHandleHeld then (c, [])
    else
      let (id, listeners) := c.provider.listeners.register channel ()
      let c := { c with provider := { c.provider with listeners } }
      let shown := [Event.registered id]
      match channel, c.active with
      | .updates, some i =>
        match c.documents[i]? with
        | none => (c, shown)
        | some d =>
          if c.provider.settings.handles d.grammar then
            let (c, more) := c.trigger i
            (c, shown ++ more)
          else (c, shown)
      | _, _ => (c, shown)
  | .release id =>
    ({ c with provider := { c.provider with listeners := (c.provider.listeners.remove id).2 } }, [])
  | .poll place =>
    match c.pending[place]? with
    | none => (c, [])
    | some cycle =>
      ({ c with pending := c.pending.eraseIdx place }.push
          (.asking { cycle with isStarted := true } place),
        [.asked cycle.number cycle.id (! cycle.isStarted)])
  | .abandon place => ({ c with pending := c.pending.eraseIdx place }, [])
  | .openDocument d => ({ c with documents := c.documents ++ [d] }, [])
  | .destroy i =>
    match c.documents[i]? with
    | none => (c, [])
    | some d =>
      if d.isDestroyed then (c, [])
      else ((c.updateDocument i Document.destroy).push (.destroying d.watches), [])
  | .edit i e => (c.updateDocument i (·.edit e), [])
  | .focus i => ({ c with active := i }, [])
  | .dispose =>
    if ! c.isHandleHeld || c.provider.isDisposed then (c, [])
    else
      let c := c.releaseWatches
      ({ c with
          provider := { c.provider with
            isDisposed := true
            listeners := c.provider.listeners.close
            tracker := c.provider.tracker.clear } },
        [.logged .disposed])
  | .dropHandle => ({ c with isHandleHeld := false }, [])
  | .returns =>
    match c.stack with
    | .calling .. :: stack => ({ c with stack }, [])
    | _ => (c, [])
  | .answers outcome =>
    match c.stack with
    | .asking cycle place :: stack =>
      let below := { c with stack }
      match outcome with
      | none =>
        ({ below with pending := c.pending.insertIdx (min place c.pending.length) cycle }, [])
      | some outcome => below.receive cycle outcome
    | _ => (c, [])

/-- One move with all the work up to the next callout, and what it shows. -/
def step (c : Configuration) (m : Move) : Configuration × List Event :=
  let (c, shown) := c.begin m
  let (c, more) := c.settle
  (c.reap, shown ++ more)

/-- A run of moves and all it shows. -/
def run (c : Configuration) : List Move → Configuration × List Event
  | [] => (c, [])
  | m :: ms =>
    let (c, shown) := c.step m
    let (c, more) := run c ms
    (c, shown ++ more)

@[simp] theorem run_nil (c : Configuration) : c.run [] = (c, []) := rfl

theorem run_cons (c : Configuration) (m : Move) (ms : List Move) :
    c.run (m :: ms) = (((c.step m).1.run ms).1, (c.step m).2 ++ ((c.step m).1.run ms).2) := rfl

theorem run_append (c : Configuration) (ms ns : List Move) :
    c.run (ms ++ ns) = (((c.run ms).1.run ns).1, (c.run ms).2 ++ ((c.run ms).1.run ns).2) := by
  induction ms generalizing c with
  | nil => simp
  | cons m ms ih => simp [run_cons, ih]

end DiagnosticRelay.Configuration
