import DiagnosticRelay.Table
import DiagnosticRelay.Update

/-!
# Registered listeners

Listeners register on one of two channels and are kept in registration order. Each has an identity
of its own, counted up over both channels and never given out again, so an identity names at most
one listener. Once closed, the lists stay empty and registering gives nothing.

The lists do not say what a listener is: they keep a value of `α` with each identity.
-/

namespace DiagnosticRelay

/-- The two kinds of notices that can be listened to. -/
inductive Channel where
  | updates
  | invalidations
  deriving DecidableEq, Repr

def Notice.channel : Notice → Channel
  | .update _ => .updates
  | .invalidation _ => .invalidations

/-- The identity of a registered listener. -/
abbrev ListenerId := Nat

/-- The listeners of both channels. -/
structure Listeners (α : Type) where
  /-- The identity given out last. -/
  lastId : ListenerId
  updates : List (ListenerId × α)
  invalidations : List (ListenerId × α)
  /-- Whether registering has ended. -/
  isClosed : Bool
  deriving DecidableEq, Repr

namespace Listeners

variable {α : Type}

/-- No listeners, open to registering. -/
def empty : Listeners α := ⟨0, [], [], false⟩

/-- The listeners of a channel, in registration order. -/
def on (l : Listeners α) : Channel → List (ListenerId × α)
  | .updates => l.updates
  | .invalidations => l.invalidations

/-- The listeners of both channels. -/
def all (l : Listeners α) : List (ListenerId × α) := l.updates ++ l.invalidations

def isRegistered (l : Listeners α) (id : ListenerId) : Bool := l.all.any fun entry => entry.1 = id

/-- Registers a listener and gives its identity; gives none when closed. -/
def register (l : Listeners α) (channel : Channel) (a : α) : Option ListenerId × Listeners α :=
  if l.isClosed then (none, l)
  else
    let id := l.lastId + 1
    match channel with
    | .updates => (some id, { l with lastId := id, updates := l.updates ++ [(id, a)] })
    | .invalidations =>
      (some id, { l with lastId := id, invalidations := l.invalidations ++ [(id, a)] })

/-- Removes the listener of an identity from both lists and gives what was removed. -/
def remove (l : Listeners α) (id : ListenerId) : List α × Listeners α :=
  let (u, updates) := Table.take id l.updates
  let (i, invalidations) := Table.take id l.invalidations
  (u.toList ++ i.toList, { l with updates, invalidations })

/-- The listeners with their entries changed, in the same order. -/
def map (f : ListenerId × α → ListenerId × α) (l : Listeners α) : Listeners α :=
  { l with updates := l.updates.map f, invalidations := l.invalidations.map f }

/-- Ends registering and removes every listener. -/
def close (l : Listeners α) : Listeners α := ⟨l.lastId, [], [], true⟩

@[simp] theorem on_map (f : ListenerId × α → ListenerId × α) (l : Listeners α) (c : Channel) :
    (l.map f).on c = (l.on c).map f := by
  cases c <;> rfl

@[simp] theorem all_map (f : ListenerId × α → ListenerId × α) (l : Listeners α) :
    (l.map f).all = l.all.map f := List.map_append.symm

@[simp] theorem on_close (l : Listeners α) (c : Channel) : l.close.on c = [] := by
  cases c <;> rfl

@[simp] theorem all_close (l : Listeners α) : l.close.all = [] := rfl

theorem register_of_isClosed {l : Listeners α} (h : l.isClosed = true) (c : Channel) (a : α) :
    l.register c a = (none, l) := by
  simp [register, h]

/-- Nothing is registered, and nothing will be. -/
structure Shut (l : Listeners α) : Prop where
  closed : l.isClosed = true
  empty : ∀ c, l.on c = []

theorem shut_close (l : Listeners α) : l.close.Shut := ⟨rfl, l.on_close⟩

namespace Shut

variable {l : Listeners α}

theorem close_eq (h : l.Shut) : l.close = l := by
  obtain ⟨lastId, updates, invalidations, isClosed⟩ := l
  obtain rfl : updates = [] := h.empty .updates
  obtain rfl : invalidations = [] := h.empty .invalidations
  obtain rfl : isClosed = true := h.closed
  rfl

theorem remove_eq (h : l.Shut) (id : ListenerId) : (l.remove id).2 = l := by
  rw [← h.close_eq]
  rfl

theorem map_eq (h : l.Shut) (f : ListenerId × α → ListenerId × α) : l.map f = l := by
  rw [← h.close_eq]
  rfl

end Shut

end Listeners

end DiagnosticRelay
