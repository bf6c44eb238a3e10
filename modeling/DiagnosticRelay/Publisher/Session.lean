import DiagnosticRelay.Publisher

/-!
# Scripted publisher sessions

A session drives a publisher by scripts: the host performs one action after another, and a listener
carries a script of its own that it performs the first few times it is called. Scripts nest to any
depth. The session keeps the host's subscriptions under names and notes what the listeners are told.

Scripts are performed from a stack that holds the rest of every script in progress, innermost first:
one for the host and one above it for each listener being called. A listener's script is over when
its rest is empty; then the listener returns.
-/

namespace DiagnosticRelay.Publisher

inductive Action where
  /-- Register a listener under a name. It takes over the subscriptions of other names. -/
  | subscribe (channel : Channel) (name : String) (owns : List String) (script : List Action)
      (times : Nat)
  /-- Release the subscription of a name. -/
  | unsubscribe (name : String)
  | publish (notice : Notice)
  | close

mutual

/-- The number of actions that an action comes to at most, with what its listener performs. -/
def Action.count : Action → Nat
  | .subscribe _ _ _ script times => 1 + times * Action.countAll script
  | .unsubscribe _ => 1
  | .publish _ => 1
  | .close => 1

/-- The number of actions that a script comes to at most. -/
def Action.countAll : List Action → Nat
  | [] => 0
  | a :: script => a.count + Action.countAll script

end

/-- What a session notes. -/
inductive Note where
  /-- The listener of a name was told something. -/
  | told (name : String) (notice : Notice)
  /-- No subscription has the name. -/
  | unknown

/-- What a listener does when it is called. -/
structure Part where
  name : String
  script : List Action
  /-- How many more times it performs its script. -/
  times : Nat

/-- A publisher driven by scripts. -/
structure Session where
  publisher : Publisher
  /-- The host's subscriptions; one made after closing has no listener. -/
  subscriptions : List (String × Option ListenerId)
  parts : List (ListenerId × Part)
  /-- The rest of every script in progress, innermost first. -/
  stack : List (List Action)
  notes : List Note

namespace Session

/-- A session with a publisher nobody has used. -/
def new : Session := ⟨.new, [], [], [], []⟩

/-- Takes the subscriptions of several names out of the table, in order. -/
def takeAll : List String → List (String × Option ListenerId) →
    List ListenerId × List (String × Option ListenerId)
  | [], table => ([], table)
  | name :: names, table =>
    let (found, table) := Table.take name table
    let (ids, table) := takeAll names table
    (found.join.toList ++ ids, table)

/-- Notes an event and puts the script of a called listener on the stack. -/
def observe (s : Session) : Event → Session
  | .registered _ => s
  | .called _ id notice =>
    match s.parts.lookup id with
    | none => { s with stack := [] :: s.stack }
    | some part =>
      let script := if part.times = 0 then [] else part.script
      let rest := s.parts.filter fun entry => entry.1 ≠ id
      { s with
        parts := (id, { part with times := part.times - 1 }) :: rest
        stack := script :: s.stack
        notes := s.notes ++ [.told part.name notice] }

/-- Makes a move and observes what it shows. -/
def move (s : Session) (m : Move) : Session :=
  let (publisher, events) := s.publisher.step m
  events.foldl observe { s with publisher }

/-- Releases a subscription that is out of the table. -/
def release (s : Session) : Option ListenerId → Session
  | none => s
  | some id => s.move (.release id)

def registered : List Event → Option ListenerId
  | .registered id :: _ => id
  | _ => none

def perform (s : Session) : Action → Session
  | .subscribe channel name owns script times =>
    let (owned, table) := takeAll owns s.subscriptions
    let (publisher, events) := s.publisher.step (.register channel owned)
    let id := registered events
    let (old, table) := Table.take name table
    let s := { s with
      publisher
      subscriptions := (name, id) :: table
      parts := id.toList.map (fun id => (id, ⟨name, script, times⟩)) ++ s.parts }
    match old with
    | none => s
    | some old => s.release old
  | .unsubscribe name =>
    match Table.take name s.subscriptions with
    | (none, _) => { s with notes := s.notes ++ [.unknown] }
    | (some id, table) => release { s with subscriptions := table } id
  | .publish notice => s.move (.publish notice)
  | .close => s.move .close

/-- One turn: the next action of the innermost script, or the return of the listener whose script
is over. -/
def turn (s : Session) : Session :=
  match s.stack with
  | [] => s
  | [[]] => { s with stack := [] }
  | [] :: outer => move { s with stack := outer } .returns
  | (a :: rest) :: outer => perform { s with stack := rest :: outer } a

/-- Turns until every script is over, at most so many. -/
def turns : Nat → Session → Session
  | 0, s => s
  | n + 1, s => if s.stack.isEmpty then s else turns n s.turn

/-- The number of actions that listeners still perform at most. -/
def partCount (parts : List (ListenerId × Part)) : Nat :=
  parts.foldr (fun entry n => entry.2.times * Action.countAll entry.2.script + n) 0

/-- A bound on the turns of an action. Every turn performs an action, or ends a listener's call or
the whole; an action calls every listener at most once, and registers at most one. -/
def turnBound (s : Session) (a : Action) : Nat :=
  let n := a.count + partCount s.parts + s.parts.length + 2
  n * n

/-- Performs an action of the host to its end. The notes are those of this action. -/
def act (s : Session) (a : Action) : Session :=
  turns (s.turnBound a) { s with stack := [[a]], notes := [] }

/-- The names of the host's subscriptions, each with whether it ever had a listener. -/
def heldNames (s : Session) : List (String × Bool) :=
  s.subscriptions.map fun entry => (entry.1, entry.2.isSome)

end Session

end DiagnosticRelay.Publisher
