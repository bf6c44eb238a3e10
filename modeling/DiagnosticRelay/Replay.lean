import DiagnosticRelay.Provider.Work
import DiagnosticRelay.SourceFile

/-!
# Replaying recorded results

A replay runs a source file through a provider with recorded compile results in place of a compiler:
the first result answers the compile on opening the file and each of the others one on saving it.
After every event the pending cycles are polled until none is left. The two listeners of a replay,
one for each channel, only collect what they are told.

A replay makes the provider's moves and nothing else, so what it collects is what any host would
see.
-/

namespace DiagnosticRelay

def SourceFile.document (f : SourceFile) : Document :=
  ⟨f.id, some f.path, f.title, f.grammar, f.lines, false, []⟩

structure Replay where
  configuration : Configuration
  /-- The results that have not been asked for. -/
  results : List CompileResult
  title : String
  /-- What the listeners were told. -/
  notices : List Notice
  log : List Report

namespace Replay

def observe (r : Replay) : Event → Replay
  | .started _ _ label => { r with log := r.log ++ [.busy label] }
  | .called _ notice => { r with notices := r.notices ++ [notice] }
  | .logged report => { r with log := r.log ++ [report] }
  | .registered _ | .asked .. | .published .. => r

/-- Makes a move and collects what it shows. -/
def move (r : Replay) (m : Move) : Replay :=
  let (configuration, events) := r.configuration.step m
  events.foldl observe { r with configuration }

/-- The answer of a compiler that has recorded results left, and the results after it. -/
def answer (title : String) : List CompileResult → Outcome × List CompileResult
  | [] => (.failed ["no recorded compile result left for " ++ title], [])
  | result :: results => (.result result, results)

/-- Goes on with whatever is in progress: the compiler answers, a listener returns, or the first
pending cycle is polled. -/
def turn (r : Replay) : Replay :=
  match r.configuration.callouts with
  | .asking .. :: _ =>
    let (outcome, results) := answer r.title r.results
    move { r with results } (.answers (some outcome))
  | _ :: _ => r.move .returns
  | [] => r.move (.poll 0)

/-- Whether nothing is in progress and no cycle is pending. -/
def isDrained (r : Replay) : Bool :=
  r.configuration.callouts.isEmpty && r.configuration.pending.isEmpty

/-- Goes on until everything is drained, at most so many turns. -/
def drainWithin : Nat → Replay → Replay
  | 0, r => r
  | n + 1, r => if r.isDrained then r else drainWithin n r.turn

/-- Polls the pending cycles until none is left. A cycle takes a poll, an answer, and the return of
a listener for its invalidation and its update. -/
def drain (r : Replay) : Replay := drainWithin (4 * r.configuration.pending.length) r

/-- Tells the provider of an event and drains it. -/
def event (r : Replay) (e : DocumentEvent) : Replay := (r.move (.event 0 e)).drain

/-- The events that so many results answer: an opening and then savings. -/
def eventsFor : Nat → List DocumentEvent
  | 0 => []
  | n + 1 => .opened :: List.replicate n .saved

/-- The replay before its first event, with both listeners registered. -/
def start (settings : Settings) (file : SourceFile) (results : List CompileResult) : Replay :=
  let log := if settings.handles file.grammar then [] else [.unconfiguredGrammar file.grammar]
  let r : Replay := ⟨.new settings [file.document], results, file.title, [], log⟩
  (r.move (.listen .invalidations)).move (.listen .updates)

/-- The whole replay of a source file, disposed of in the end. -/
def whole (settings : Settings) (file : SourceFile) (results : List CompileResult) : Replay :=
  ((eventsFor results.length).foldl event (start settings file results)).move .dispose

/-- What the listeners of a replay are told. -/
def noticesOf (settings : Settings) (file : SourceFile) (results : List CompileResult) :
    List Notice :=
  (whole settings file results).notices

end Replay

end DiagnosticRelay
