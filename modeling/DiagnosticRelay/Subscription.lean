import DiagnosticRelay.Table

/-!
# Subscriptions

A subscription is released when it is disposed of or dropped, and releasing it may release others in
turn. A `Shelf` holds subscriptions under names. Each carries the names of those that its release
lets go as well, as far as they are on the shelf by then: each is taken off the shelf first and then
released, before the next one's turn. So chains and circles of such names end, because a
subscription is let go only once.

An inert subscription has nothing to release. Subscriptions are numbered in the order they are made,
which tells two of one name apart.
-/

namespace DiagnosticRelay

/-- A release: the subscription's number and the name it was made under. -/
structure Released where
  serial : Nat
  name : String
  deriving DecidableEq, Repr

/-- A subscription on a shelf. -/
structure Held where
  /-- The number given when the subscription was made. -/
  serial : Nat
  /-- Whether there is nothing to release. -/
  isInert : Bool
  /-- The names whose subscriptions are let go on release, in this order. -/
  releases : List String
  deriving DecidableEq, Repr

namespace Held

/-- The release of a subscription under a name; none if it is inert. -/
def released (h : Held) (name : String) : List Released :=
  if h.isInert then [] else [⟨h.serial, name⟩]

/-- The names that the release of a subscription lets go. -/
def letsGo (h : Held) : List String := if h.isInert then [] else h.releases

end Held

/-- Subscriptions under names, and the number of the next one. -/
structure Shelf where
  entries : List (String × Held)
  next : Nat
  deriving DecidableEq, Repr

namespace Shelf

/-- The shelf without subscriptions. -/
def empty : Shelf := ⟨[], 0⟩

/-- Takes a subscription off the shelf. -/
def take (s : Shelf) (name : String) : Option Held × Shelf :=
  ((Table.take name s.entries).1, { s with entries := (Table.take name s.entries).2 })

/-- The number of names that subscriptions let go. -/
def letsGoCount (entries : List (String × Held)) : Nat :=
  entries.foldr (fun e n => e.2.letsGo.length + n) 0

/-- Lets the subscriptions of names go in order, and depth first those that their releases let go.
The number bounds the names. -/
def letGoWithin : Nat → List String → Shelf → List Released × Shelf
  | _, [], s => ([], s)
  | 0, _ :: _, s => ([], s)
  | n + 1, name :: names, s =>
    match s.take name with
    | (none, s) => letGoWithin n names s
    | (some h, s) =>
      let (more, s) := letGoWithin n (h.letsGo ++ names) s
      (h.released name ++ more, s)

/-- Lets the subscriptions of names go in order. Each one that is let go takes its own names off the
shelf with it. -/
def letGo (s : Shelf) (names : List String) : List Released × Shelf :=
  letGoWithin (names.length + letsGoCount s.entries) names s

/-- Makes a subscription and puts it on the shelf. One that held the name before is released, with
the new one already in its place. -/
def put (s : Shelf) (name : String) (isInert : Bool) (releases : List String) :
    List Released × Shelf :=
  let new : Held := ⟨s.next, isInert, releases⟩
  let (old, s) := s.take name
  let s : Shelf := ⟨(name, new) :: s.entries, s.next + 1⟩
  match old with
  | none => ([], s)
  | some h =>
    let (more, s) := s.letGo h.letsGo
    (h.released name ++ more, s)

def contains (s : Shelf) (name : String) : Bool := s.entries.any fun entry => entry.1 = name

/-- Whether the subscription of a name, if there is one, still has something to release. -/
def isActive? (s : Shelf) (name : String) : Option Bool :=
  (s.entries.find? fun entry => entry.1 = name).map fun entry => ! entry.2.isInert

/-- The names on the shelf, in ascending order. -/
def names (s : Shelf) : List String :=
  (s.entries.map Prod.fst).mergeSort fun a b => decide (a ≤ b)

end Shelf

def subscriptionText (isActive : Bool) : String :=
  "Subscription \x7b active: " ++ (if isActive then "true" else "false") ++ " \x7d"

end DiagnosticRelay
