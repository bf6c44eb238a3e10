import DiagnosticRelay.Proofs.Subscription.Cascade
import Mathlib.Data.List.Nodup

/-!
# The account of subscriptions

What happens to subscriptions on a shelf: they are made and held under a name, which lets go of the
one that held the name before, and they are disposed of or dropped. `made` numbers them in the order
they are made in, by what is done alone. After each of these actions, the releases that have run are
those of the subscriptions that were made with something to release and are not held any more, each
of them once (`run_accounted`).
-/

namespace DiagnosticRelay.Shelf

inductive Action where
  | put (name : String) (isInert : Bool) (releases : List String)
  | dispose (name : String)
  | drop (name : String)
  deriving DecidableEq, Repr

/-- The name that an action is about. -/
def Action.name : Action → String
  | .put name _ _ | .dispose name | .drop name => name

def act (s : Shelf) : Action → List Released × Shelf
  | .put name isInert releases => s.put name isInert releases
  | .dispose name | .drop name => s.letGo [name]

/-- The calls that an action makes, with the shelf as it is then: a subscription is taken off the
shelf before it is disposed of, and is in its place before another one is dropped for it. -/
def cascade (s : Shelf) : Action → Cascade
  | .put name isInert releases =>
    let (old, t) := s.take name
    ⟨(old.map fun h => .drop (h.taken name)).toList,
      ⟨(name, ⟨s.next, isInert, releases⟩) :: t.entries, t.next + 1⟩, []⟩
  | .dispose name =>
    let (found, t) := s.take name
    ⟨(found.map fun h => .dispose (h.taken name)).toList, t, []⟩
  | .drop name => ⟨[.letGo name], s, []⟩

/-- The releases that actions run in order, and the shelf they leave. -/
def run : Shelf → List Action → List Released × Shelf
  | s, [] => ([], s)
  | s, a :: as => ((s.act a).1 ++ ((s.act a).2.run as).1, ((s.act a).2.run as).2)

/-- The subscriptions that an action makes, with its name, when the next one has the number. -/
def madeBy (next : Nat) : Action → List (String × Held)
  | .put name isInert releases => [(name, ⟨next, isInert, releases⟩)]
  | .dispose _ | .drop _ => []

/-- The subscriptions that actions make, numbered in order. -/
def made : Nat → List Action → List (String × Held)
  | _, [] => []
  | next, a :: as => madeBy next a ++ made (next + (madeBy next a).length) as

variable {s : Shelf} {actions : List Action}

@[simp] theorem run_nil (s : Shelf) : s.run [] = ([], s) := rfl

theorem run_cons (s : Shelf) (a : Action) (as : List Action) :
    s.run (a :: as) = ((s.act a).1 ++ ((s.act a).2.run as).1, ((s.act a).2.run as).2) := rfl

/-! ## One action -/

/-- The calls that an action makes end with what the action gives. -/
theorem ends_cascade (s : Shelf) (a : Action) : (s.cascade a).Ends (s.act a) := by
  cases a with
  | put name isInert releases =>
    cases ht : s.take name with
    | mk old t =>
      simp only [cascade, act, put, ht]
      cases old with
      | none => exact .refl
      | some h =>
        dsimp only
        rw [← Held.released_taken, ← h.letsGo_taken name]
        exact Cascade.ends_drop (h.taken name) _
  | dispose name =>
    cases ht : s.take name with
    | mk found t =>
      simp only [cascade, act, ht]
      cases found with
      | none =>
        rw [letGo_cons_of_take_none ht, letGo_nil, eq_of_take_none ht]
        exact .refl
      | some h =>
        rw [letGo_cons_of_take_some ht, List.append_nil, ← Held.released_taken,
          ← h.letsGo_taken name]
        exact Cascade.ends_dispose (h.taken name) t
  | drop name => exact Cascade.ends_letGo [name] s

/-- A subscription that is taken, if any, is still to be released. -/
theorem perm_live_of_take {t : Shelf} {name : String} {found : Option Held}
    (ht : s.take name = (found, t)) {call : Taken → Call}
    (hcall : ∀ x, (call x).pending = x.released) :
    ((found.map fun h => call (h.taken name)).toList.flatMap Call.pending ++
      liveOf t.entries).Perm (liveOf s.entries) := by
  cases found with
  | none => rw [eq_of_take_none ht]; exact .refl _
  | some h =>
    simp only [Option.map_some, Option.toList_some, List.flatMap_singleton, hcall,
      Held.released_taken]
    exact (perm_live_take ht).symm

/-- An action begins with what it makes and what was held. -/
theorem perm_account_cascade (s : Shelf) (a : Action) :
    (s.cascade a).account.Perm (liveOf (madeBy s.next a) ++ liveOf s.entries) := by
  cases a with
  | put name isInert releases =>
    cases ht : s.take name with
    | mk old t =>
      simp only [cascade, ht, Cascade.account, madeBy, liveOf, List.flatMap_cons, List.flatMap_nil,
        List.nil_append, List.append_nil]
      exact (List.perm_append_comm_assoc _ _ _).trans
        ((perm_live_of_take ht fun _ => rfl).append_left _)
  | dispose name =>
    cases ht : s.take name with
    | mk found t =>
      simp only [cascade, ht, Cascade.account, List.nil_append]
      exact perm_live_of_take ht fun _ => rfl
  | drop name => exact .refl _

theorem entries_cascade_subset (s : Shelf) (a : Action) :
    (s.cascade a).shelf.entries ⊆ madeBy s.next a ++ s.entries := by
  cases a with
  | put name isInert releases =>
    cases ht : s.take name with
    | mk old t =>
      simp only [cascade, ht]
      exact List.cons_subset_cons _ (entries_sublist_of_take ht).subset
  | dispose name =>
    cases ht : s.take name with
    | mk found t =>
      simp only [cascade, ht]
      exact (entries_sublist_of_take ht).subset
  | drop name => exact List.Subset.refl _

theorem next_cascade (s : Shelf) (a : Action) :
    (s.cascade a).shelf.next = s.next + (madeBy s.next a).length := by
  cases a with
  | put name isInert releases =>
    cases ht : s.take name with
    | mk old t =>
      simp only [cascade, ht, next_of_take ht]
      rfl
  | dispose name =>
    cases ht : s.take name with
    | mk found t =>
      simp only [cascade, ht, next_of_take ht]
      rfl
  | drop name => rfl

/-- An action releases some of what it makes and what was held, and the rest is held. -/
theorem perm_act (s : Shelf) (a : Action) :
    ((s.act a).1 ++ liveOf (s.act a).2.entries).Perm
      (liveOf (madeBy s.next a) ++ liveOf s.entries) :=
  (ends_cascade s a).follows.account.trans (perm_account_cascade s a)

theorem entries_act_subset (s : Shelf) (a : Action) :
    (s.act a).2.entries ⊆ madeBy s.next a ++ s.entries :=
  List.Subset.trans (ends_cascade s a).follows.entries.subset (entries_cascade_subset s a)

theorem next_act (s : Shelf) (a : Action) :
    (s.act a).2.next = s.next + (madeBy s.next a).length :=
  (ends_cascade s a).follows.next.trans (next_cascade s a)

/-! ## Who is off the shelf -/

/-- Where no name comes twice, no action makes one come twice. -/
theorem nodup_names_act (h : (s.entries.map Prod.fst).Nodup) (a : Action) :
    ((s.act a).2.entries.map Prod.fst).Nodup := by
  refine ((ends_cascade s a).follows.entries.map Prod.fst).nodup ?_
  cases a with
  | put name isInert releases =>
    have hrest : (Table.take name s.entries).2 = s.entries.filter (·.1 ≠ name) :=
      Table.take_eq_filter h
    show (name :: (Table.take name s.entries).2.map Prod.fst).Nodup
    refine List.nodup_cons.mpr ⟨?_, ((Table.take_sublist name _).map Prod.fst).nodup h⟩
    rw [hrest]
    simp
  | dispose name => exact ((Table.take_sublist name _).map Prod.fst).nodup h
  | drop name => exact h

/-- Disposing of a name takes the one that held it off the shelf. -/
theorem not_mem_act_dispose (h : (s.entries.map Prod.fst).Nodup) (name : String) (held : Held) :
    (name, held) ∉ (s.act (.dispose name)).2.entries := by
  intro hmem
  have hrest : (name, held) ∈ (Table.take name s.entries).2 :=
    (ends_cascade s (.dispose name)).follows.entries.subset hmem
  rw [Table.take_eq_filter h] at hrest
  simp at hrest

/-- The one that held the name of an action before does not hold it afterwards. -/
theorem not_mem_act (h : (s.entries.map Prod.fst).Nodup) {held : Held}
    (hnext : held.serial < s.next) (a : Action) : (a.name, held) ∉ (s.act a).2.entries := by
  cases a with
  | put name isInert releases =>
    intro hmem
    have hentry : (name, held) ∈
        (name, ⟨s.next, isInert, releases⟩) :: (Table.take name s.entries).2 :=
      (ends_cascade s (.put name isInert releases)).follows.entries.subset hmem
    rw [Table.take_eq_filter h] at hentry
    obtain ⟨-, rfl⟩ := Prod.mk.inj ((List.mem_cons.mp hentry).resolve_right (by simp))
    exact Nat.lt_irrefl _ hnext
  | dispose name => exact not_mem_act_dispose h name held
  | drop name => exact not_mem_act_dispose h name held

/-! ## All of them -/

theorem run_append (s : Shelf) (actions more : List Action) :
    (s.run (actions ++ more)).2 = ((s.run actions).2.run more).2 := by
  induction actions generalizing s with
  | nil => rfl
  | cons a as ih => exact ih (s.act a).2

theorem nodup_names_run (h : (s.entries.map Prod.fst).Nodup) (actions : List Action) :
    ((s.run actions).2.entries.map Prod.fst).Nodup := by
  induction actions generalizing s with
  | nil => exact h
  | cons a as ih => exact ih (nodup_names_act h a)

theorem next_run (s : Shelf) (actions : List Action) :
    (s.run actions).2.next = s.next + (made s.next actions).length := by
  induction actions generalizing s with
  | nil => rfl
  | cons a as ih =>
    have hnext := ih (s.act a).2
    rw [next_act, Nat.add_assoc, ← List.length_append] at hnext
    exact hnext

open scoped List in
theorem perm_run (s : Shelf) (actions : List Action) :
    ((s.run actions).1 ++ liveOf (s.run actions).2.entries).Perm
      (liveOf (made s.next actions) ++ liveOf s.entries) := by
  induction actions generalizing s with
  | nil => exact .refl _
  | cons a as ih =>
    have hmade : liveOf (made s.next (a :: as)) =
        liveOf (madeBy s.next a) ++ liveOf (made (s.act a).2.next as) := by
      rw [made, liveOf, List.flatMap_append, ← next_act]
      rfl
    calc (s.run (a :: as)).1 ++ liveOf (s.run (a :: as)).2.entries
        = (s.act a).1 ++ (((s.act a).2.run as).1 ++ liveOf ((s.act a).2.run as).2.entries) := by
          rw [run_cons, List.append_assoc]
      _ ~ (s.act a).1 ++ (liveOf (made (s.act a).2.next as) ++ liveOf (s.act a).2.entries) :=
          (ih (s.act a).2).append_left _
      _ ~ liveOf (made (s.act a).2.next as) ++ ((s.act a).1 ++ liveOf (s.act a).2.entries) :=
          List.perm_append_comm_assoc _ _ _
      _ ~ liveOf (made (s.act a).2.next as) ++ (liveOf (madeBy s.next a) ++ liveOf s.entries) :=
          (perm_act s a).append_left _
      _ ~ liveOf (madeBy s.next a) ++ (liveOf (made (s.act a).2.next as) ++ liveOf s.entries) :=
          List.perm_append_comm_assoc _ _ _
      _ = liveOf (made s.next (a :: as)) ++ liveOf s.entries := by
          rw [hmade, List.append_assoc]

theorem entries_run_subset (s : Shelf) (actions : List Action) :
    (s.run actions).2.entries ⊆ made s.next actions ++ s.entries := by
  induction actions generalizing s with
  | nil => exact List.Subset.refl _
  | cons a as ih =>
    intro entry hentry
    rw [made, ← next_act, List.append_assoc, List.mem_append]
    rcases List.mem_append.mp (ih (s.act a).2 hentry) with h | h
    · exact .inr (List.mem_append_left _ h)
    · rcases List.mem_append.mp (entries_act_subset s a h) with h | h
      · exact .inl h
      · exact .inr (List.mem_append_right _ h)

/-- Subscriptions are numbered in the order they are made in. -/
theorem serials_made (next : Nat) (actions : List Action) :
    (made next actions).map (·.2.serial) = List.range' next (made next actions).length := by
  induction actions generalizing next with
  | nil => rfl
  | cons a as ih =>
    rw [made, List.map_append, ih, List.length_append, ← List.range'_append_1]
    cases a <;> rfl

/-- Two subscriptions of one number are the same. -/
theorem eq_of_serial_eq {next : Nat} {entry entry' : String × Held}
    (h : entry ∈ made next actions) (h' : entry' ∈ made next actions)
    (hserial : entry.2.serial = entry'.2.serial) : entry = entry' := by
  have hnodup : ((made next actions).map (·.2.serial)).Nodup := by
    rw [serials_made]
    exact List.nodup_range'
  exact List.inj_on_of_nodup_map hnodup h h' hserial

/-- What is made has one of the numbers from the next one on. -/
theorem le_serial_of_mem_made {next : Nat} {entry : String × Held}
    (h : entry ∈ made next actions) :
    next ≤ entry.2.serial ∧ entry.2.serial < next + (made next actions).length := by
  have hserial := List.mem_map_of_mem (f := (·.2.serial)) h
  rwa [serials_made, List.mem_range'_1] at hserial

theorem mem_liveOf {entries : List (String × Held)} {r : Released} : r ∈ liveOf entries ↔
    ∃ name h, (name, h) ∈ entries ∧ h.isInert = false ∧ r = ⟨h.serial, name⟩ := by
  constructor
  · intro hr
    obtain ⟨⟨name, h⟩, hentry, hr⟩ := List.mem_flatMap.mp hr
    cases hinert : h.isInert <;> simp [Held.released, hinert] at hr
    exact ⟨name, h, hentry, hinert, hr⟩
  · rintro ⟨name, h, hentry, hinert, rfl⟩
    exact List.mem_flatMap.mpr ⟨(name, h), hentry, by simp [Held.released, hinert]⟩

theorem serials_liveOf_sublist (entries : List (String × Held)) :
    ((liveOf entries).map Released.serial).Sublist (entries.map (·.2.serial)) := by
  induction entries with
  | nil => exact .refl _
  | cons entry entries ih =>
    obtain ⟨name, h⟩ := entry
    rw [liveOf, List.flatMap_cons, List.map_append, List.map_cons]
    cases hinert : h.isInert with
    | true =>
      simp only [Held.released, hinert, if_true, List.map_nil, List.nil_append]
      exact ih.cons _
    | false =>
      simp only [Held.released, hinert, Bool.false_eq_true, if_false, List.map_singleton]
      exact ih.cons_cons _

/-! ## The account -/

/-- Where the subscriptions are that actions make on an empty shelf. -/
structure Accounted (actions : List Action) : Prop where
  /-- No release runs twice. -/
  once : ((empty.run actions).1.map Released.serial).Nodup
  /-- The releases that have run are those of the subscriptions that have something to release and
  are not held any more. -/
  released : ∀ r, r ∈ (empty.run actions).1 ↔ ∃ name h, (name, h) ∈ made 0 actions ∧
    h.isInert = false ∧ (name, h) ∉ (empty.run actions).2.entries ∧ r = ⟨h.serial, name⟩
  /-- An inert subscription releases nothing. -/
  inert : ∀ name h, (name, h) ∈ made 0 actions → h.isInert = true →
    h.serial ∉ (empty.run actions).1.map Released.serial
  /-- What is held was made, and subscriptions are told apart by their numbers. -/
  held : (empty.run actions).2.entries ⊆ made 0 actions
  serials : (made 0 actions).map (·.2.serial) = List.range (made 0 actions).length
  /-- Who holds a name is off the shelf for good when the name is disposed of, dropped or put
  again. -/
  gone : ∀ before a after h, actions = before ++ a :: after →
    (a.name, h) ∈ (empty.run before).2.entries → (a.name, h) ∉ (empty.run actions).2.entries
  /-- The calls of every action end with what the action gives. -/
  ends : ∀ before a after, actions = before ++ a :: after →
    ((empty.run before).2.cascade a).Ends ((empty.run before).2.act a)

theorem perm_run_empty (actions : List Action) :
    ((empty.run actions).1 ++ liveOf (empty.run actions).2.entries).Perm
      (liveOf (made 0 actions)) := by
  have h := perm_run empty actions
  rwa [show liveOf empty.entries = [] from rfl, List.append_nil] at h

theorem entries_run_empty_subset (actions : List Action) :
    (empty.run actions).2.entries ⊆ made 0 actions := by
  have h := entries_run_subset empty actions
  rwa [show empty.entries = [] from rfl, List.append_nil] at h

/-- No number comes twice among what has been released and what is still to be. -/
theorem nodup_serials_run (actions : List Action) : ((empty.run actions).1.map Released.serial ++
    (liveOf (empty.run actions).2.entries).map Released.serial).Nodup := by
  rw [← List.map_append, ((perm_run_empty actions).map Released.serial).nodup_iff]
  refine (serials_liveOf_sublist _).nodup ?_
  rw [serials_made]
  exact List.nodup_range'

theorem mem_run_iff {r : Released} : r ∈ (empty.run actions).1 ↔ ∃ name h,
    (name, h) ∈ made 0 actions ∧ h.isInert = false ∧
      (name, h) ∉ (empty.run actions).2.entries ∧ r = ⟨h.serial, name⟩ := by
  constructor
  · intro hr
    obtain ⟨name, h, hmade, hinert, rfl⟩ :=
      mem_liveOf.mp ((perm_run_empty actions).subset (List.mem_append_left _ hr))
    refine ⟨name, h, hmade, hinert, ?_, rfl⟩
    intro hentry
    have hlive : ⟨h.serial, name⟩ ∈ liveOf (empty.run actions).2.entries :=
      mem_liveOf.mpr ⟨name, h, hentry, hinert, rfl⟩
    exact List.disjoint_of_nodup_append (nodup_serials_run actions) (List.mem_map_of_mem hr)
      (List.mem_map_of_mem hlive)
  · rintro ⟨name, h, hmade, hinert, hentry, rfl⟩
    have hall := (perm_run_empty actions).mem_iff.mpr (mem_liveOf.mpr ⟨name, h, hmade, hinert, rfl⟩)
    rcases List.mem_append.mp hall with hr | hlive
    · exact hr
    · -- What is held under the number is the subscription itself, which is not held.
      obtain ⟨name', h', hentry', _, heq⟩ := mem_liveOf.mp hlive
      have hsame := eq_of_serial_eq (entries_run_empty_subset actions hentry') hmade
        (congrArg Released.serial heq).symm
      exact absurd (hsame ▸ hentry') hentry

/-- What an action takes off the shelf does not come back: what is made later has a number of its
own. -/
theorem not_mem_run_of_held {before after : List Action} {a : Action} {h : Held}
    (hactions : actions = before ++ a :: after)
    (hheld : (a.name, h) ∈ (empty.run before).2.entries) :
    (a.name, h) ∉ (empty.run actions).2.entries := by
  have hnodup := nodup_names_run (s := empty) List.nodup_nil before
  have hserial : h.serial < (empty.run before).2.next := by
    have hmade := le_serial_of_mem_made (entries_run_empty_subset before hheld)
    rw [next_run]
    exact hmade.2
  rw [hactions, run_append]
  intro hmem
  rcases List.mem_append.mp (entries_run_subset _ after hmem) with hmade | hentry
  · have hlater : ((empty.run before).2.act a).2.next ≤ h.serial := (le_serial_of_mem_made hmade).1
    rw [next_act] at hlater
    omega
  · exact not_mem_act hnodup hserial a hentry

/-- Whatever is made, held, replaced, disposed of and dropped, and whatever releases let go in their
turn, the account is right after every action. -/
theorem run_accounted (actions : List Action) : Accounted actions where
  once := (nodup_serials_run actions).of_append_left
  released := fun _ => mem_run_iff
  inert := by
    intro name h hmade hinert hserial
    obtain ⟨r, hr, hrserial⟩ := List.mem_map.mp hserial
    obtain ⟨name', h', hmade', hinert', _, rfl⟩ := mem_run_iff.mp hr
    obtain ⟨_, rfl⟩ := Prod.mk.inj (eq_of_serial_eq hmade' hmade hrserial)
    rw [hinert] at hinert'
    cases hinert'
  held := entries_run_empty_subset actions
  serials := by
    rw [serials_made, List.range_eq_range']
  gone := fun _ _ _ _ hactions hheld => not_mem_run_of_held hactions hheld
  ends := fun _ _ _ _ => ends_cascade _ _

-- The two refer to each other. The first one is replaced, so the second goes with it, and takes the
-- one that has just come in its place.
example : (empty.run [.put "a" false ["b"], .put "b" false ["a"], .put "a" false []]).1 =
    [⟨0, "a"⟩, ⟨1, "b"⟩, ⟨2, "a"⟩] := by decide

end DiagnosticRelay.Shelf
