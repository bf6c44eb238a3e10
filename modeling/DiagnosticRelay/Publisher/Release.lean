import DiagnosticRelay.Publisher

/-!
# Releases with a publisher

The bound on a cascade of releases is never what ends it. A release takes a listener off the lists
together with the subscriptions it owns, so what is still to be released and what is still owned get
less together (`ownedCount_remove`). Hence releasing is determined by two equations without a bound,
`releaseAll_nil` and `releaseAll_cons`.
-/

namespace DiagnosticRelay.Publisher

@[simp] theorem ownedCount_nil : ownedCount [] = 0 := rfl

@[simp] theorem ownedCount_cons (e : Entry) (entries : List Entry) :
    ownedCount (e :: entries) = e.2.length + ownedCount entries := rfl

@[simp] theorem ownedCount_append (entries more : List Entry) :
    ownedCount (entries ++ more) = ownedCount entries + ownedCount more := by
  induction entries with
  | nil => simp
  | cons e entries ih =>
    rw [List.cons_append, ownedCount_cons, ownedCount_cons, ih, Nat.add_assoc]

/-- Taking a listener out of a list takes out what it owns. -/
theorem ownedCount_take (id : ListenerId) (entries : List Entry) :
    ownedCount (Table.take id entries).2 + (Table.take id entries).1.toList.flatten.length =
      ownedCount entries := by
  induction entries with
  | nil => rfl
  | cons e entries ih =>
    obtain ⟨i, owned⟩ := e
    by_cases hi : i = id
    · subst hi
      rw [Table.take_cons_self]
      simp [Nat.add_comm]
    · rw [Table.take_cons_of_ne hi, ownedCount_cons, ownedCount_cons, Nat.add_assoc, ih]

/-- Removing a listener removes what it owns. -/
theorem ownedCount_remove (l : Listeners (List ListenerId)) (id : ListenerId) :
    ownedCount (l.remove id).2.all + (l.remove id).1.flatten.length = ownedCount l.all := by
  have hu := ownedCount_take id l.updates
  have hi := ownedCount_take id l.invalidations
  simp only [Listeners.remove, Listeners.all, ownedCount_append, List.flatten_append,
    List.length_append]
  omega

theorem releaseWithin_cons (pins : List ListenerId) (n : Nat) (id : ListenerId)
    (rest : List ListenerId) (l : Listeners (List ListenerId)) :
    releaseWithin pins (n + 1) (id :: rest) l =
      releaseWithin pins n (droppedBy pins id l ++ rest) (l.remove id).2 := rfl

/-- A release leaves less to be released and owned. -/
theorem length_droppedBy_le (pins : List ListenerId) (id : ListenerId)
    (l : Listeners (List ListenerId)) :
    (droppedBy pins id l).length + ownedCount (l.remove id).2.all ≤ ownedCount l.all := by
  have h := ownedCount_remove l id
  unfold droppedBy
  split
  · simp only [List.length_nil]
    omega
  · omega

/-- Releasing within any sufficient bound comes to the same. -/
theorem releaseWithin_eq {pins : List ListenerId} {m n : Nat} {ids : List ListenerId}
    {l : Listeners (List ListenerId)} (hm : ids.length + ownedCount l.all ≤ m)
    (hn : ids.length + ownedCount l.all ≤ n) :
    releaseWithin pins m ids l = releaseWithin pins n ids l := by
  induction m generalizing n ids l with
  | zero =>
    cases ids with
    | nil => cases n <;> rfl
    | cons id rest => simp at hm
  | succ m ih =>
    cases ids with
    | nil => cases n <;> rfl
    | cons id rest =>
      cases n with
      | zero => simp at hn
      | succ n =>
        have h := length_droppedBy_le pins id l
        rw [List.length_cons] at hm hn
        rw [releaseWithin_cons, releaseWithin_cons]
        exact ih (by rw [List.length_append]; omega) (by rw [List.length_append]; omega)

@[simp] theorem releaseAll_nil (pins : List ListenerId) (l : Listeners (List ListenerId)) :
    releaseAll pins [] l = l := by
  unfold releaseAll
  cases ([] : List ListenerId).length + ownedCount l.all <;> rfl

/-- The subscriptions of a dropped listener are released before the remaining ones. -/
theorem releaseAll_cons (pins : List ListenerId) (id : ListenerId) (rest : List ListenerId)
    (l : Listeners (List ListenerId)) :
    releaseAll pins (id :: rest) l =
      releaseAll pins (droppedBy pins id l ++ rest) (l.remove id).2 := by
  have h := length_droppedBy_le pins id l
  unfold releaseAll
  have hlength : (id :: rest).length + ownedCount l.all = (rest.length + ownedCount l.all) + 1 := by
    rw [List.length_cons]
    omega
  rw [hlength, releaseWithin_cons]
  exact releaseWithin_eq (by rw [List.length_append]; omega) (Nat.le_refl _)

end DiagnosticRelay.Publisher
