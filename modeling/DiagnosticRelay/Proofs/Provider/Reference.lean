import DiagnosticRelay.Proofs.Provider.Watching

/-!
# What listeners ought to hear

A reference for the provider that knows nothing of tracker, watches, cycles or work in progress. It
keeps the paths of the last update of every document, and reacts to three kinds of occurrences:
messages were made for a live document, a document was destroyed, the provider was disposed of. The
occurrences of a run are read off what the host and the compiler know (`occurrence`), and
`Reference.follow` gives all that a listener on each channel ought to hear in the course of it.
-/

namespace DiagnosticRelay

/-- What the reference reacts to. -/
inductive Occurrence where
  /-- The compiler answers for a live document, and messages could be made. -/
  | resumed (id : DocumentId) (u : Update)
  | destroyed (id : DocumentId)
  | disposed

/-- The state of the reference. -/
structure Reference where
  /-- The paths of the last update for a document. -/
  last : DocumentId → List Path
  isDisposed : Bool

namespace Reference

/-- The reference before anything has occurred. -/
def start : Reference := ⟨fun _ => [], false⟩

/-- The reference with other paths for a document. -/
def setLast (s : Reference) (id : DocumentId) (paths : List Path) : Reference :=
  { s with last := fun e => if e = id then paths else s.last e }

/-- The invalidation of the last update for a document, if it had paths. -/
def cleared (s : Reference) (id : DocumentId) : List Notice :=
  if s.last id = [] then [] else [.invalidation ⟨s.last id⟩]

/-- The next state, and what is heard. -/
def react (s : Reference) (o : Occurrence) : Reference × List Notice :=
  if s.isDisposed then (s, [])
  else
    match o with
    | .resumed id u => (s.setLast id u.paths, s.cleared id ++ [.update u])
    | .destroyed id => (s.setLast id [], s.cleared id)
    | .disposed => ({ s with isDisposed := true }, [])

/-- The reaction to what occurred, if anything did. -/
def see (s : Reference) : Option Occurrence → Reference × List Notice
  | none => (s, [])
  | some o => s.react o

@[simp] theorem see_none (s : Reference) : s.see none = (s, []) := rfl

@[simp] theorem last_setLast (s : Reference) (id e : DocumentId) (paths : List Path) :
    (s.setLast id paths).last e = if e = id then paths else s.last e := rfl

theorem setLast_eq_self {s : Reference} {id : DocumentId} {paths : List Path}
    (h : s.last id = paths) : s.setLast id paths = s := by
  have hlast : (fun e => if e = id then paths else s.last e) = s.last := by
    funext e
    split
    · next he => rw [he, h]
    · rfl
  rw [setLast, hlast]

theorem react_of_isDisposed {s : Reference} (h : s.isDisposed = true) (o : Occurrence) :
    s.react o = (s, []) := if_pos h

theorem see_of_isDisposed {s : Reference} (h : s.isDisposed = true) (o : Option Occurrence) :
    s.see o = (s, []) := by
  cases o with
  | none => rfl
  | some o => exact react_of_isDisposed h o

theorem react_resumed {s : Reference} (h : s.isDisposed = false) (id : DocumentId) (u : Update) :
    s.react (.resumed id u) = (s.setLast id u.paths, s.cleared id ++ [.update u]) := by
  simp [react, h]

theorem react_destroyed {s : Reference} (h : s.isDisposed = false) (id : DocumentId) :
    s.react (.destroyed id) = (s.setLast id [], s.cleared id) := by
  simp [react, h]

theorem react_disposed {s : Reference} (h : s.isDisposed = false) :
    s.react .disposed = ({ s with isDisposed := true }, []) := by
  simp [react, h]

end Reference

namespace Configuration

/-- What occurs when a move is made. -/
def occurrence (c : Configuration) : Move → Option Occurrence
  | .answers (some (.result r)) =>
    match c.stack with
    | .asking cycle _ :: _ =>
      match c.documents[cycle.document]? with
      | none => none
      | some d =>
        if d.isDestroyed then none
        else
          match messagesOf r d.path d.lines with
          | .error _ => none
          | .ok u => some (.resumed d.id u)
    | _ => none
  | .destroy i =>
    match c.documents[i]? with
    | none => none
    | some d => if d.isDestroyed then none else some (.destroyed d.id)
  | .dispose => some .disposed
  | _ => none

end Configuration

/-- The reference along a run of moves, and all that is heard. -/
def Reference.follow (s : Reference) (c : Configuration) : List Move → Reference × List Notice
  | [] => (s, [])
  | m :: ms =>
    let (s, heard) := s.see (c.occurrence m)
    let (s, more) := s.follow (c.step m).1 ms
    (s, heard ++ more)

theorem Reference.follow_cons (s : Reference) (c : Configuration) (m : Move) (ms : List Move) :
    s.follow c (m :: ms) = (((s.see (c.occurrence m)).1.follow (c.step m).1 ms).1,
      (s.see (c.occurrence m)).2 ++ ((s.see (c.occurrence m)).1.follow (c.step m).1 ms).2) := rfl

/-- The listeners that are there from the start, one on each channel. -/
def isAttending (id : ListenerId) : Bool := id = 1 || id = 2

/-- What the listeners that are there from the start have heard. -/
def heard (es : List Event) : List Notice :=
  es.filterMap fun
    | .called id notice => if isAttending id then some notice else none
    | _ => none

@[simp] theorem heard_nil : heard [] = [] := rfl

@[simp] theorem heard_append (es es' : List Event) : heard (es ++ es') = heard es ++ heard es' := by
  simp [heard]

namespace Configuration

/-- A provider that two listeners have been registered with, and nothing else has been done. -/
def attended (settings : Settings) (documents : List Document) : Configuration :=
  ((new settings documents).run [.listen .updates, .listen .invalidations]).1

/-- While a listener is called nobody does anything but let it return. The handle is held, the two
listeners stay, and documents are opened under identities of their own. -/
def passive (c : Configuration) (m : Move) : Bool :=
  c.opensNew m &&
    match c.stack, m with
    | .calling .. :: _, .returns => true
    | .calling .. :: _, _ => false
    | _, .dropHandle => false
    | _, .release id => ! isAttending id
    | _, _ => true

end Configuration

end DiagnosticRelay
