import DiagnosticRelay.Listeners

/-!
# The publisher

A publisher hands every notice to the listeners registered on its channel when publishing began, one
after the other and in registration order. A listener may do anything while it is called: register
and release listeners, publish, close the publisher. So a state holds the deliveries in progress,
innermost first, each with the listener being called and those still waiting, and a run is a
sequence of moves made by whoever is running: the host when no delivery is in progress, else the
called listener, whose return is a move as well.

A listener may own subscriptions, to other listeners or to itself: it takes some over when it is
registered, and more can be given to it as long as it is registered or part of a delivery. They are
released when the listener is dropped, which is when it is neither any more. Releases go depth first
and call no one. The subscriptions the host holds are part of the state, because one can be released
or given to a listener only once.
-/

namespace DiagnosticRelay

namespace Publisher

/-- A listener with the subscriptions it owns. -/
abbrev Entry := ListenerId × List ListenerId

structure Delivery where
  /-- The number of the publish call. -/
  serial : Nat
  notice : Notice
  /-- The listener being called. -/
  current : Entry
  /-- The listeners still to be called. -/
  waiting : List Entry

namespace Delivery

/-- The listeners that a delivery keeps alive. -/
def pins (d : Delivery) : List ListenerId := d.current.1 :: d.waiting.map Prod.fst

/-- The delivery with its entries changed. -/
def map (f : Entry → Entry) (d : Delivery) : Delivery :=
  { d with current := f d.current, waiting := d.waiting.map f }

end Delivery

/-- What a run shows. -/
inductive Event where
  /-- A listener was registered; none while closed. -/
  | registered (id : Option ListenerId)
  /-- A listener is called by the publish call of that number. -/
  | called (serial : Nat) (id : ListenerId) (notice : Notice)
  deriving DecidableEq, Repr

/-- What may be done with a publisher. -/
inductive Move where
  /-- Register a listener that takes over some of the held subscriptions. -/
  | register (channel : Channel) (owned : List ListenerId)
  /-- Release a held subscription. -/
  | release (id : ListenerId)
  /-- Give a held subscription to a listener. -/
  | give (id owner : ListenerId)
  | publish (notice : Notice)
  | close
  /-- The called listener returns. -/
  | returns
  deriving DecidableEq, Repr

end Publisher

/-- A publisher, its deliveries in progress and the subscriptions held by the host. -/
structure Publisher where
  listeners : Listeners (List ListenerId)
  held : List ListenerId
  deliveries : List Publisher.Delivery
  /-- The number of the next publish call. -/
  nextSerial : Nat

namespace Publisher

/-- A publisher nobody has used. -/
def new : Publisher := ⟨.empty, [], [], 0⟩

/-- The listeners that the deliveries in progress keep alive. -/
def pinned (deliveries : List Delivery) : List ListenerId := deliveries.flatMap Delivery.pins

/-- An entry with one more subscription if its listener is the new owner. -/
def endow (owner id : ListenerId) (e : Entry) : Entry :=
  if e.1 = owner then (e.1, e.2 ++ [id]) else e

/-- The number of subscriptions that listeners own. -/
def ownedCount (entries : List Entry) : Nat := entries.foldr (fun e n => e.2.length + n) 0

/-- The subscriptions that are dropped when one is released: those of its listener, unless the
listener is pinned. -/
def droppedBy (pins : List ListenerId) (id : ListenerId) (l : Listeners (List ListenerId)) :
    List ListenerId :=
  if id ∈ pins then [] else (l.remove id).1.flatten

/-- Releases subscriptions in order, and depth first those that are dropped on the way. The number
bounds the releases. -/
def releaseWithin (pins : List ListenerId) :
    Nat → List ListenerId → Listeners (List ListenerId) → Listeners (List ListenerId)
  | _, [], l => l
  | 0, _ :: _, l => l
  | n + 1, id :: rest, l => releaseWithin pins n (droppedBy pins id l ++ rest) (l.remove id).2

/-- Releases subscriptions in order. Each release either drops a listener, whose subscriptions count
among the owned ones, or drops nothing. -/
def releaseAll (pins ids : List ListenerId) (l : Listeners (List ListenerId)) :
    Listeners (List ListenerId) :=
  releaseWithin pins (ids.length + ownedCount l.all) ids l

/-- Calls the first waiting listener of a publish call, or ends the call. -/
def callNext (p : Publisher) (serial : Nat) (notice : Notice) :
    List Entry → Publisher × List Event
  | [] => (p, [])
  | e :: waiting =>
    ({ p with deliveries := ⟨serial, notice, e, waiting⟩ :: p.deliveries },
      [.called serial e.1 notice])

/-- Drops a listener that a delivery is done with, unless it is registered or still pinned. -/
def dropIfUnused (pins : List ListenerId) (e : Entry) (l : Listeners (List ListenerId)) :
    Listeners (List ListenerId) :=
  if l.isRegistered e.1 || e.1 ∈ pins then l else releaseAll pins e.2 l

/-- One move and what it shows. A move that is not possible changes nothing. -/
def step (p : Publisher) : Move → Publisher × List Event
  | .register channel owned =>
    let owned := owned.eraseDups.filter (· ∈ p.held)
    let held := p.held.filter (· ∉ owned)
    match p.listeners.register channel owned with
    | (some id, listeners) => ({ p with listeners, held := held ++ [id] }, [.registered (some id)])
    | (none, listeners) =>
      ({ p with listeners := releaseAll (pinned p.deliveries) owned listeners, held },
        [.registered none])
  | .release id =>
    if id ∈ p.held then
      ({ p with listeners := releaseAll (pinned p.deliveries) [id] p.listeners,
                held := p.held.filter (· ≠ id) }, [])
    else (p, [])
  | .give id owner =>
    if id ∈ p.held ∧ (p.listeners.isRegistered owner = true ∨ owner ∈ pinned p.deliveries) then
      ({ p with listeners := p.listeners.map (endow owner id)
                held := p.held.filter (· ≠ id)
                deliveries := p.deliveries.map (Delivery.map (endow owner id)) }, [])
    else (p, [])
  | .publish notice =>
    callNext { p with nextSerial := p.nextSerial + 1 } p.nextSerial notice
      (p.listeners.on notice.channel)
  | .close => ({ p with listeners := p.listeners.close }, [])
  | .returns =>
    match p.deliveries with
    | [] => (p, [])
    | d :: deliveries =>
      let pins := d.waiting.map Prod.fst ++ pinned deliveries
      let listeners := dropIfUnused pins d.current p.listeners
      callNext { p with listeners, deliveries } d.serial d.notice d.waiting

/-- A run of moves and all it shows. -/
def run (p : Publisher) : List Move → Publisher × List Event
  | [] => (p, [])
  | m :: ms =>
    let (p, shown) := p.step m
    let (p, more) := run p ms
    (p, shown ++ more)

@[simp] theorem run_nil (p : Publisher) : p.run [] = (p, []) := rfl

theorem run_cons (p : Publisher) (m : Move) (ms : List Move) :
    p.run (m :: ms) = (((p.step m).1.run ms).1, (p.step m).2 ++ ((p.step m).1.run ms).2) := rfl

theorem run_append (p : Publisher) (ms ns : List Move) :
    p.run (ms ++ ns) = (((p.run ms).1.run ns).1, (p.run ms).2 ++ ((p.run ms).1.run ns).2) := by
  induction ms generalizing p with
  | nil => simp
  | cons m ms ih => simp [run_cons, ih]

end Publisher

end DiagnosticRelay
