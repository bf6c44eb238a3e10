import DiagnosticRelay.Provider.Work

/-!
# Scripted provider sessions

A session surrounds a provider with a scripted host, a scripted compiler and scripted listeners. The
host performs one action after another. The compiler takes the next reply of a queue whenever it is
asked for a new cycle; a reply carries an outcome, or the cell in which one will be put later, and a
script that is performed while the compiler is being asked. A listener performs its script the first
few times it is called. Scripts nest to any depth.

Scripts are performed from a stack that holds the rest of every script in progress, innermost first:
one for the host, and one above it for each callout of the provider. When the rest of a script is
empty, the listener returns or the compiler answers.
-/

namespace DiagnosticRelay

inductive Action where
  | run (document : DocumentIndex)
  | event (document : DocumentIndex) (e : DocumentEvent)
  /-- Queue a reply that is there at once. -/
  | reply (outcome : Outcome) (script : List Action)
  /-- Queue a reply whose outcome comes later, under a name. -/
  | defer (name : String) (script : List Action)
  /-- Give a deferred reply its outcome. -/
  | resolve (name : String) (outcome : Outcome)
  | poll (place : Nat)
  /-- Poll every pending cycle again and again until none of them finishes. -/
  | pump
  | abandon (place : Nat)
  | subscribe (channel : Channel) (name : String) (script : List Action) (times : Nat)
  | unsubscribe (name : String)
  | destroy (document : DocumentIndex)
  | focus (document : Option DocumentIndex)
  | edit (document : DocumentIndex) (e : Edit)
  | dispose
  | dropHandle

mutual

/-- The number of actions that an action comes to at most, with what its listener performs or what
is performed while the compiler is asked. -/
def Action.count : Action → Nat
  | .subscribe _ _ script times => 1 + times * Action.countAll script
  | .reply _ script => 1 + Action.countAll script
  | .defer _ script => 1 + Action.countAll script
  | .run _ | .event _ _ | .resolve _ _ | .poll _ | .pump | .abandon _ | .unsubscribe _ => 1
  | .destroy _ | .focus _ | .edit _ _ | .dispose | .dropHandle => 1

/-- The number of actions that a script comes to at most. -/
def Action.countAll : List Action → Nat
  | [] => 0
  | a :: script => a.count + Action.countAll script

end

namespace Session

/-- What a session notes. -/
inductive Note where
  /-- A cycle was handed to the host. -/
  | busy (label : String) (cycle : Nat)
  /-- The compiler was asked for a new cycle of a document. -/
  | compile (id : DocumentId)
  /-- The listener of a name was told something. -/
  | told (name : String) (notice : Notice)
  | logged (r : Report)
  | polled (cycle : Nat) (isDone : Bool)
  /-- Nothing has the name. -/
  | unknown
  /-- The host holds no provider any more. -/
  | noProvider

/-- What remains to be done of a script. -/
inductive Task where
  | act (a : Action)
  /-- Note the end of a poll. -/
  | polled (cycle : Nat)
  /-- Go on pumping at a place of the queue, knowing whether a cycle finished in this round. -/
  | pump (place : Nat) (progress : Bool)
  /-- Go on pumping after the poll of a cycle. -/
  | pumped (cycle place : Nat) (progress : Bool)

/-- Where the outcome of a reply comes from. -/
inductive Supply where
  | now (outcome : Outcome)
  | later (cell : Nat)

/-- A queued reply of the compiler. -/
structure Reply where
  supply : Supply
  script : List Action

/-- What a listener does when it is called. -/
structure Part where
  name : String
  script : List Action
  /-- How many more times it performs its script. -/
  times : Nat

end Session

/-- A provider with scripted surroundings. -/
structure Session where
  configuration : Configuration
  /-- The host's subscriptions; one made after disposing has no listener. -/
  subscriptions : List (String × Option ListenerId)
  parts : List (ListenerId × Session.Part)
  replies : List Session.Reply
  /-- The outcomes of deferred replies. -/
  cells : List (Option Outcome)
  /-- The cells of deferred replies by name, the newest first. -/
  deferred : List (String × Nat)
  /-- Where the outcome of each cycle comes from. -/
  supplies : List (Nat × Session.Supply)
  /-- The rest of every script in progress, innermost first. -/
  stack : List (List Session.Task)
  notes : List Session.Note

namespace Session

/-- A session with a provider nobody has used. -/
def new (settings : Settings) (documents : List Document) : Session :=
  ⟨.new settings documents, [], [], [], [], [], [], [], []⟩

def note (s : Session) (n : Note) : Session := { s with notes := s.notes ++ [n] }

def enter (s : Session) (script : List Action) : Session :=
  { s with stack := script.map .act :: s.stack }

/-- The reply to a compiler that was given none. -/
def noReply : Reply := ⟨.now (.failed ["no scripted reply"]), []⟩

/-- Notes an event, and enters the script of a listener or of the compiler that is called. -/
def observe (s : Session) : Event → Session
  | .registered _ => s
  | .started cycle _ label => s.note (.busy label cycle)
  | .published .. => s
  | .logged r => s.note (.logged r)
  | .asked _ _ false => s.enter []
  | .asked cycle id true =>
    let (reply, replies) := match s.replies with
      | [] => (noReply, [])
      | r :: rs => (r, rs)
    let s := { s with replies, supplies := (cycle, reply.supply) :: s.supplies }
    (s.note (.compile id)).enter reply.script
  | .called id notice =>
    match s.parts.lookup id with
    | none => s.enter []
    | some part =>
      let script := if part.times = 0 then [] else part.script
      let others := s.parts.filter fun entry => entry.1 ≠ id
      let s := { s with parts := (id, { part with times := part.times - 1 }) :: others }
      (s.note (.told part.name notice)).enter script

/-- Makes a move and observes what it shows. -/
def move (s : Session) (m : Move) : Session :=
  let (configuration, events) := s.configuration.step m
  events.foldl observe { s with configuration }

/-- The session with tasks in front of the innermost script. -/
def schedule (s : Session) (tasks : List Task) : Session :=
  match s.stack with
  | [] => { s with stack := [tasks] }
  | script :: outer => { s with stack := (tasks ++ script) :: outer }

/-- Releases a subscription that is out of the table. -/
def release (s : Session) : Option ListenerId → Session
  | none => s
  | some id => s.move (.release id)

def registered : List Event → Option ListenerId
  | .registered id :: _ => id
  | _ => none

/-- Makes a move that needs the provider's handle. -/
def moveWithHandle (s : Session) (m : Move) : Session :=
  if s.configuration.isHandleHeld then s.move m else s.note .noProvider

/-- Registers a listener and keeps its subscription under a name, then releases the one that held
the name before. -/
def subscribe (s : Session) (channel : Channel) (part : Part) : Session :=
  if s.configuration.isHandleHeld then
    let (configuration, events) := s.configuration.step (.listen channel)
    let id := registered events
    let s := events.foldl observe
      { s with configuration, parts := id.toList.map (fun id => (id, part)) ++ s.parts }
    let (old, table) := Table.take part.name s.subscriptions
    let s := { s with subscriptions := (part.name, id) :: table }
    match old with
    | none => s
    | some old => s.release old
  else s.note .noProvider

/-- Polls the cycle at a place, then goes on with tasks that depend on its number. -/
def poll (s : Session) (place : Nat) (next : Nat → List Task) : Session :=
  match s.configuration.pending[place]? with
  | none => s
  | some cycle => (s.schedule (.polled cycle.number :: next cycle.number)).move (.poll place)

/-- Whether a cycle is neither pending nor being polled. -/
def isDone (s : Session) (cycle : Nat) : Bool :=
  ! s.configuration.pending.any fun c => c.number = cycle

def perform (s : Session) : Action → Session
  | .run i => s.moveWithHandle (.run i)
  | .event i e => s.moveWithHandle (.event i e)
  | .reply outcome script => { s with replies := s.replies ++ [⟨.now outcome, script⟩] }
  | .defer name script =>
    { s with
      replies := s.replies ++ [⟨.later s.cells.length, script⟩]
      deferred := (name, s.cells.length) :: s.deferred
      cells := s.cells ++ [none] }
  | .resolve name outcome =>
    match s.deferred.lookup name with
    | none => s.note .unknown
    | some cell =>
      match s.cells[cell]? with
      | some none => { s with cells := s.cells.set cell (some outcome) }
      | _ => s.note .unknown
  | .poll place => s.poll place fun _ => []
  | .pump => s.schedule [.pump 0 false]
  | .abandon place => s.move (.abandon place)
  | .subscribe channel name script times => s.subscribe channel ⟨name, script, times⟩
  | .unsubscribe name =>
    match Table.take name s.subscriptions with
    | (none, _) => s.note .unknown
    | (some id, table) => release { s with subscriptions := table } id
  | .destroy i => s.move (.destroy i)
  | .focus i => s.move (.focus i)
  | .edit i e => s.move (.edit i e)
  | .dispose => s.moveWithHandle .dispose
  | .dropHandle => s.move .dropHandle

def performTask (s : Session) : Task → Session
  | .act a => s.perform a
  | .polled cycle => s.note (.polled cycle (s.isDone cycle))
  | .pump place progress =>
    if place < s.configuration.pending.length then
      s.poll place fun cycle => [.pumped cycle place progress]
    else if progress then s.schedule [.pump 0 false]
    else s
  | .pumped cycle place progress =>
    if s.isDone cycle then s.schedule [.pump place true]
    else s.schedule [.pump (place + 1) progress]

/-- The outcome of a cycle, if it is there yet. -/
def outcomeOf (s : Session) (cycle : Nat) : Option Outcome :=
  match s.supplies.lookup cycle with
  | none => none
  | some (.now outcome) => some outcome
  | some (.later cell) => s.cells[cell]?.join

/-- Ends the callout on top of the provider's work. -/
def endCallout (s : Session) : Session :=
  match s.configuration.callouts with
  | .asking cycle _ :: _ => s.move (.answers (s.outcomeOf cycle.number))
  | _ => s.move .returns

/-- One turn: the next task of the innermost script, or the end of its callout when it is over. -/
def turn (s : Session) : Session :=
  match s.stack with
  | [] => s
  | [[]] => { s with stack := [] }
  | [] :: outer => endCallout { s with stack := outer }
  | (t :: rest) :: outer => performTask { s with stack := rest :: outer } t

/-- Turns until every script is over, at most so many. -/
def turns : Nat → Session → Session
  | 0, s => s
  | n + 1, s => if s.stack.isEmpty then s else turns n s.turn

/-- The number of actions that are still performed by listeners, or while the compiler is asked, at
most. -/
def scriptedCount (s : Session) : Nat :=
  s.parts.foldr (fun entry n => entry.2.times * Action.countAll entry.2.script + n) 0 +
    s.replies.foldr (fun r n => Action.countAll r.script + n) 0

def watchCount (documents : List Document) : Nat :=
  documents.foldr (fun d n => d.watches.length + n) 0

/-- A bound on the turns of an action. An action starts at most one cycle, registers at most one
listener and watches at most one document. So, with `n` bounding the cycles, listeners and watches
that there can ever be, `n` actions pump at most `2 * n * n` times each, a poll calls the listeners
at most three times, and a watch once. -/
def turnBound (s : Session) (a : Action) : Nat :=
  let n := a.count + s.scriptedCount + s.parts.length + s.configuration.pending.length +
    watchCount s.configuration.documents + 8
  let square := n * n
  square * square * square

/-- Performs an action of the host to its end. The notes are those of this action. -/
def act (s : Session) (a : Action) : Session :=
  turns (s.turnBound a) { s with stack := [[.act a]], notes := [] }

end Session

end DiagnosticRelay
