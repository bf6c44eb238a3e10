import DiagnosticRelay.Subscription.Release
import Mathlib.Logic.Relation

/-!
# Cascades of releases

Letting subscriptions go, step by step. A subscription that is taken off the shelf carries its
release with it until the release is run, and running it takes it out. So a subscription that is
disposed of is dropped after that like any other, and by then there is nothing left to release.

The calls that are under way and those that are still to be made form a stack: the calls that a
release makes come before what follows the call that ran it. A release may choose what it lets go by
what it finds; in any one run that comes to some list of names, so lists lose nothing here.

There is no bound on a cascade. That it ends, with the same releases and the same shelf as letting
the names go within a bound, is `Cascade.ends_letGo`. Along the way nothing is lost or released
twice: every step leaves the same subscriptions released, under way or held, as `Cascade.Follows`
says.
-/

namespace DiagnosticRelay

/-- A subscription off the shelf. Nothing is left of its release once it has been run, and nothing
was there if the subscription is inert. -/
structure Taken where
  serial : Nat
  name : String
  release : Option (List String)
  deriving DecidableEq, Repr

namespace Taken

/-- The release that runs when the subscription is released now. -/
def released (x : Taken) : List Released := if x.release.isSome then [⟨x.serial, x.name⟩] else []

/-- The names that are let go when the subscription is released now. -/
def letsGo (x : Taken) : List String := x.release.getD []

/-- The subscription once it has been released. -/
def spent (x : Taken) : Taken := { x with release := none }

@[simp] theorem released_spent (x : Taken) : x.spent.released = [] := rfl

@[simp] theorem letsGo_spent (x : Taken) : x.spent.letsGo = [] := rfl

end Taken

/-- A held subscription as it is taken off the shelf. -/
def Held.taken (h : Held) (name : String) : Taken :=
  ⟨h.serial, name, if h.isInert then none else some h.releases⟩

@[simp] theorem Held.released_taken (h : Held) (name : String) :
    (h.taken name).released = h.released name := by
  cases hinert : h.isInert <;> simp [taken, Taken.released, released, hinert]

@[simp] theorem Held.letsGo_taken (h : Held) (name : String) :
    (h.taken name).letsGo = h.letsGo := by
  cases hinert : h.isInert <;> simp [taken, Taken.letsGo, letsGo, hinert]

/-- A call on the stack. -/
inductive Call where
  /-- Take the subscription of a name off the shelf, if there is one, and drop it. -/
  | letGo (name : String)
  /-- Release the subscription, then drop it. -/
  | dispose (x : Taken)
  /-- Release the subscription, if it has not been released. -/
  | drop (x : Taken)
  deriving DecidableEq, Repr

/-- The release that a call on the stack still has to run. -/
def Call.pending : Call → List Released
  | .letGo _ => []
  | .dispose x | .drop x => x.released

/-- Calls to be made, the shelf, and what has been released so far. -/
structure Cascade where
  calls : List Call
  shelf : Shelf
  released : List Released
  deriving DecidableEq, Repr

namespace Cascade

/-- The next step; none when all calls are over. -/
def next? (c : Cascade) : Option Cascade :=
  match c.calls with
  | [] => none
  | .letGo name :: calls =>
    match c.shelf.take name with
    | (none, shelf) => some ⟨calls, shelf, c.released⟩
    | (some h, shelf) => some ⟨.drop (h.taken name) :: calls, shelf, c.released⟩
  | .dispose x :: calls =>
    some ⟨x.letsGo.map .letGo ++ .drop x.spent :: calls, c.shelf, c.released ++ x.released⟩
  | .drop x :: calls =>
    some ⟨x.letsGo.map .letGo ++ calls, c.shelf, c.released ++ x.released⟩

/-- The first cascade comes to the second one in some steps. -/
def Reaches : Cascade → Cascade → Prop := Relation.ReflTransGen fun c c' => c.next? = some c'

/-- The cascade ends, with these releases run in order, and with this shelf. -/
def Ends (c : Cascade) (result : List Released × Shelf) : Prop :=
  c.Reaches ⟨[], result.2, result.1⟩

variable {c c' : Cascade} {calls : List Call} {s : Shelf} {rs : List Released}

theorem Reaches.trans {c'' : Cascade} (h : c.Reaches c') (h' : c'.Reaches c'') : c.Reaches c'' :=
  Relation.ReflTransGen.trans h h'

theorem Reaches.step {c'' : Cascade} (h : c.next? = some c') (h' : c'.Reaches c'') :
    c.Reaches c'' :=
  Relation.ReflTransGen.head h h'

/-! ## Where cascades lead -/

theorem next?_letGo_of_take_none {name : String} {t : Shelf} (ht : s.take name = (none, t)) :
    next? ⟨.letGo name :: calls, s, rs⟩ = some ⟨calls, t, rs⟩ := by
  simp only [next?, ht]

theorem next?_letGo_of_take_some {name : String} {h : Held} {t : Shelf}
    (ht : s.take name = (some h, t)) :
    next? ⟨.letGo name :: calls, s, rs⟩ = some ⟨.drop (h.taken name) :: calls, t, rs⟩ := by
  simp only [next?, ht]

/-- Names are let go one after the other, each with all that its release lets go. -/
theorem reaches_letGo (names : List String) (calls : List Call) (s : Shelf) (rs : List Released) :
    Reaches ⟨names.map .letGo ++ calls, s, rs⟩
      ⟨calls, (s.letGo names).2, rs ++ (s.letGo names).1⟩ := by
  -- Names to let go, and names that subscriptions on the shelf let go, get less together.
  induction hn : names.length + Shelf.letsGoCount s.entries using Nat.strongRecOn
    generalizing names s rs with
  | ind n ih =>
    cases names with
    | nil =>
      rw [Shelf.letGo_nil, List.append_nil]
      exact .refl
    | cons name names =>
      rw [List.length_cons] at hn
      cases ht : s.take name with
      | mk found t =>
        cases found with
        | none =>
          rw [Shelf.letGo_cons_of_take_none ht]
          obtain rfl : t = s := Shelf.eq_of_take_none ht
          exact .step (next?_letGo_of_take_none ht) (ih _ (by omega) names t rs rfl)
        | some h =>
          have hcount := Shelf.letsGoCount_take ht
          have hrest := ih _ (by rw [List.length_append]; omega) (h.letsGo ++ names) t
            (rs ++ h.released name) rfl
          have hdrop : next? ⟨.drop (h.taken name) :: (names.map .letGo ++ calls), t, rs⟩ =
              some ⟨(h.letsGo ++ names).map .letGo ++ calls, t, rs ++ h.released name⟩ := by
            simp [next?]
          rw [Shelf.letGo_cons_of_take_some ht, ← List.append_assoc]
          exact .step (next?_letGo_of_take_some ht) (.step hdrop hrest)

/-- Letting names go ends. -/
theorem ends_letGo (names : List String) (s : Shelf) :
    Ends ⟨names.map .letGo, s, []⟩ (s.letGo names) := by
  have h := reaches_letGo names [] s []
  rw [List.append_nil] at h
  exact h

/-- Dropping a subscription ends. -/
theorem ends_drop (x : Taken) (s : Shelf) :
    Ends ⟨[.drop x], s, []⟩ (x.released ++ (s.letGo x.letsGo).1, (s.letGo x.letsGo).2) :=
  .step rfl (reaches_letGo x.letsGo [] s x.released)

/-- Disposing of a subscription ends as dropping it does: by the time it is dropped, there is
nothing left to release. -/
theorem ends_dispose (x : Taken) (s : Shelf) :
    Ends ⟨[.dispose x], s, []⟩ (x.released ++ (s.letGo x.letsGo).1, (s.letGo x.letsGo).2) := by
  have hspent : next? ⟨[.drop x.spent], (s.letGo x.letsGo).2, x.released ++ (s.letGo x.letsGo).1⟩ =
      some ⟨[], (s.letGo x.letsGo).2, x.released ++ (s.letGo x.letsGo).1⟩ := by
    simp [next?]
  exact .step rfl ((reaches_letGo x.letsGo [.drop x.spent] s x.released).trans
    (.step hspent .refl))

end Cascade

/-! ## What a step moves -/

/-- What an entry releases when it is let go. -/
def liveOf (entries : List (String × Held)) : List Released :=
  entries.flatMap fun entry => entry.2.released entry.1

theorem Table.perm_take {κ α : Type} [DecidableEq κ] {name : κ} {table : List (κ × α)} {a : α}
    (h : (take name table).1 = some a) : table.Perm ((name, a) :: (take name table).2) := by
  induction table with
  | nil => cases h
  | cons entry rest ih =>
    obtain ⟨n, b⟩ := entry
    by_cases hn : n = name
    · subst hn
      rw [take_cons_self] at h ⊢
      rw [Option.some.inj h]
    · rw [take_cons_of_ne hn] at h ⊢
      exact ((ih h).cons _).trans (List.Perm.swap _ _ _)

theorem Shelf.next_of_take {s t : Shelf} {name : String} {found : Option Held}
    (ht : s.take name = (found, t)) : t.next = s.next := by
  rw [← (Prod.mk.inj ht).2]

theorem Shelf.entries_sublist_of_take {s t : Shelf} {name : String} {found : Option Held}
    (ht : s.take name = (found, t)) : t.entries.Sublist s.entries := by
  rw [← (Prod.mk.inj ht).2]
  exact Table.take_sublist name s.entries

/-- What is released by a subscription that is taken is no longer on the shelf. -/
theorem Shelf.perm_live_take {s t : Shelf} {name : String} {h : Held}
    (ht : s.take name = (some h, t)) :
    (liveOf s.entries).Perm (h.released name ++ liveOf t.entries) := by
  obtain ⟨hfound, hrest⟩ := Prod.mk.inj ht
  rw [← hrest]
  exact (Table.perm_take hfound).flatMap_right _

namespace Cascade

/-- What has been released, is to be released by a call under way, or is held. -/
def account (c : Cascade) : List Released :=
  c.released ++ (c.calls.flatMap Call.pending ++ liveOf c.shelf.entries)

/-- The second cascade has the same subscriptions as the first, and none is put on the shelf. -/
structure Follows (c c' : Cascade) : Prop where
  account : c'.account.Perm c.account
  entries : c'.shelf.entries.Sublist c.shelf.entries
  next : c'.shelf.next = c.shelf.next

theorem Follows.refl (c : Cascade) : c.Follows c := ⟨.refl _, .refl _, rfl⟩

theorem Follows.trans {c c' c'' : Cascade} (h : c.Follows c') (h' : c'.Follows c'') :
    c.Follows c'' :=
  ⟨h'.account.trans h.account, h'.entries.trans h.entries, h'.next.trans h.next⟩

/-- The calls that a release makes have nothing to run before they have taken anything. -/
theorem pending_map_letGo (names : List String) :
    (names.map Call.letGo).flatMap Call.pending = [] := by
  simp [List.flatMap_map, Call.pending]

/-- A step moves a subscription at most: from the shelf to a call, or from a call to what has been
released. -/
theorem Follows.of_next? {c c' : Cascade} (h : c.next? = some c') : c.Follows c' := by
  obtain ⟨calls, s, rs⟩ := c
  cases calls with
  | nil => cases h
  | cons call calls =>
    cases call with
    | letGo name =>
      cases ht : s.take name with
      | mk found t =>
        have hentries : t.entries.Sublist s.entries := Shelf.entries_sublist_of_take ht
        have hnext : t.next = s.next := Shelf.next_of_take ht
        cases found with
        | none =>
          rw [next?_letGo_of_take_none ht] at h
          obtain rfl := Option.some.inj h
          obtain rfl : t = s := Shelf.eq_of_take_none ht
          exact ⟨.refl _, hentries, hnext⟩
        | some x =>
          rw [next?_letGo_of_take_some ht] at h
          obtain rfl := Option.some.inj h
          refine ⟨?_, hentries, hnext⟩
          simp only [Cascade.account, List.flatMap_cons, Call.pending, Held.released_taken,
            List.nil_append, List.append_assoc]
          apply List.Perm.append_left
          exact (List.perm_append_comm_assoc _ _ _).trans
            ((Shelf.perm_live_take ht).symm.append_left _)
    | dispose x =>
      obtain rfl := Option.some.inj h
      refine ⟨.of_eq ?_, .refl _, rfl⟩
      simp [Cascade.account, pending_map_letGo, Call.pending]
    | drop x =>
      obtain rfl := Option.some.inj h
      refine ⟨.of_eq ?_, .refl _, rfl⟩
      simp [Cascade.account, pending_map_letGo, Call.pending]

theorem Reaches.follows {c c' : Cascade} (h : c.Reaches c') : c.Follows c' := by
  induction h with
  | refl => exact .refl c
  | tail _ hstep ih => exact ih.trans (.of_next? hstep)

end Cascade

end DiagnosticRelay
