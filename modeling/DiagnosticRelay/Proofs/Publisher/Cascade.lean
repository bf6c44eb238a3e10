import Mathlib.Logic.Relation
import DiagnosticRelay.Proofs.Publisher.Identities

/-!
# Cascades of releases

A release drops a listener, unless a delivery keeps it, and with it the subscriptions it owns, which
are released in turn. `released` lists the subscriptions of such a cascade in the order in which
they are released. A cascade removes exactly the listeners of its subscriptions and leaves the order
of the others alone (`on_releaseAll`), and the subscriptions it releases are exactly those that can
be reached from the first ones along ownership (`mem_released_iff`). Neither the order nor what is
reached twice makes a difference, circles of ownership included.
-/

namespace DiagnosticRelay

namespace Listeners

variable {α : Type} {l : Listeners α}

theorem mem_all_iff {e : ListenerId × α} : e ∈ l.all ↔ ∃ c, e ∈ l.on c := by
  constructor
  · intro he
    rcases List.mem_append.mp he with he | he
    · exact ⟨.updates, he⟩
    · exact ⟨.invalidations, he⟩
  · rintro ⟨c, he⟩
    cases c with
    | updates => exact List.mem_append_left _ he
    | invalidations => exact List.mem_append_right _ he

theorem isRegistered_iff {id : ListenerId} : l.isRegistered id = true ↔ ∃ e ∈ l.all, e.1 = id := by
  simp [isRegistered]

namespace Numbered

theorem nodup_ids (h : l.Numbered) (c : Channel) : (l.ids c).Nodup :=
  (h.ascending c).imp Nat.ne_of_lt

theorem nodup_all (h : l.Numbered) : (l.all.map Prod.fst).Nodup := by
  have hsplit : l.all.map Prod.fst = l.ids .updates ++ l.ids .invalidations := by
    simp [all, ids, on]
  rw [hsplit]
  refine List.nodup_append.mpr ⟨h.nodup_ids _, h.nodup_ids _, ?_⟩
  rintro id hu _ hi rfl
  cases h.apart _ _ id hu hi

theorem remove (h : l.Numbered) (id : ListenerId) : (l.remove id).2.Numbered :=
  h.of_sublist (l.ids_remove_sublist id) (Nat.le_refl _)

/-- Removing a listener leaves the others as they are. -/
theorem on_remove (h : l.Numbered) (id : ListenerId) (c : Channel) :
    (l.remove id).2.on c = (l.on c).filter (·.1 ≠ id) := by
  cases c with
  | updates => exact Table.take_eq_filter (h.nodup_ids .updates)
  | invalidations => exact Table.take_eq_filter (h.nodup_ids .invalidations)

theorem mem_all_remove_iff (h : l.Numbered) {id : ListenerId} {e : ListenerId × α} :
    e ∈ (l.remove id).2.all ↔ e ∈ l.all ∧ e.1 ≠ id := by
  simp only [mem_all_iff, h.on_remove, List.mem_filter, decide_eq_true_eq]
  exact exists_and_right

theorem isRegistered_remove_iff (h : l.Numbered) {id other : ListenerId} :
    (l.remove id).2.isRegistered other = true ↔ l.isRegistered other = true ∧ other ≠ id := by
  simp only [isRegistered_iff, h.mem_all_remove_iff]
  constructor
  · rintro ⟨e, ⟨he, hne⟩, rfl⟩
    exact ⟨⟨e, he, rfl⟩, hne⟩
  · rintro ⟨⟨e, he, rfl⟩, hne⟩
    exact ⟨e, ⟨he, hne⟩, rfl⟩

theorem mem_removed_iff (h : l.Numbered) {id : ListenerId} {a : α} :
    a ∈ (l.remove id).1 ↔ (id, a) ∈ l.all := by
  have hu := Table.take_eq_some_iff id a (h.nodup_ids .updates)
  have hi := Table.take_eq_some_iff id a (h.nodup_ids .invalidations)
  simp only [on] at hu hi
  simp [Listeners.remove, all, hu, hi]

/-- A registered listener is on one channel, so it is removed once. -/
theorem removed_eq (h : l.Numbered) {id : ListenerId} {a : α} (hmem : (id, a) ∈ l.all) :
    (l.remove id).1 = [a] := by
  have hu := fun b => Table.take_eq_some_iff id b (h.nodup_ids .updates)
  have hi := fun b => Table.take_eq_some_iff id b (h.nodup_ids .invalidations)
  simp only [on] at hu hi
  have hnone {taken : Option α} (hnot : ∀ b, taken ≠ some b) : taken = none :=
    Option.eq_none_iff_forall_ne_some.mpr hnot
  have hapart (b c : α) (hleft : (id, b) ∈ l.updates) (hright : (id, c) ∈ l.invalidations) :
      False := by
    cases h.apart .updates .invalidations id (List.mem_map_of_mem hleft)
      (List.mem_map_of_mem hright)
  rcases List.mem_append.mp hmem with hmem | hmem
  · have hother : (Table.take id l.invalidations).1 = none :=
      hnone fun b hb => hapart a b hmem ((hi b).mp hb)
    simp [Listeners.remove, (hu a).mpr hmem, hother]
  · have hother : (Table.take id l.updates).1 = none :=
      hnone fun b hb => hapart b a ((hu b).mp hb) hmem
    simp [Listeners.remove, (hi a).mpr hmem, hother]

end Numbered

end Listeners

/-- From some starting points one reaches a point, its successors passing no more through it, or
what is reached without passing through it. -/
theorem exists_reflTransGen_cons_iff {α : Type} {r : α → α → Prop} {a x : α} {rest : List α} :
    (∃ b ∈ a :: rest, Relation.ReflTransGen r b x) ↔
      x = a ∨ ∃ b, (r a b ∨ b ∈ rest) ∧
        Relation.ReflTransGen (fun y z => y ≠ a ∧ r y z) b x := by
  constructor
  · rintro ⟨b, hb, hx⟩
    -- on the way there: whenever it comes back to `a`, it starts again with a successor of `a`
    induction hx with
    | refl =>
      rcases List.mem_cons.mp hb with rfl | hb
      · exact .inl rfl
      · exact .inr ⟨b, .inr hb, .refl⟩
    | @tail y z _ hstep ih =>
      by_cases hy : y = a
      · exact .inr ⟨z, .inl (hy ▸ hstep), .refl⟩
      · obtain ⟨b', hb', hreach⟩ := ih.resolve_left hy
        exact .inr ⟨b', hb', hreach.tail ⟨hy, hstep⟩⟩
  · have hmono {b : α} (h : Relation.ReflTransGen (fun y z => y ≠ a ∧ r y z) b x) :
        Relation.ReflTransGen r b x := h.lift id fun _ _ hstep => hstep.2
    rintro (rfl | ⟨b, hb | hb, hreach⟩)
    · exact ⟨x, List.mem_cons_self, .refl⟩
    · exact ⟨a, List.mem_cons_self, .head hb (hmono hreach)⟩
    · exact ⟨b, List.mem_cons_of_mem _ hb, hmono hreach⟩

namespace Publisher

/-- The subscriptions that are released when some are released in order, depth first. -/
def released (pins : List ListenerId) :
    List ListenerId → Listeners (List ListenerId) → List ListenerId
  | [], _ => []
  | id :: rest, l => id :: released pins (droppedBy pins id l ++ rest) (l.remove id).2
termination_by ids l => ids.length + ownedCount l.all
decreasing_by
  have h := length_droppedBy_le pins id l
  rw [List.length_append, List.length_cons]
  omega

/-- Releasing the first subscription drops its listener, which owns the second one. -/
def Passes (pins : List ListenerId) (l : Listeners (List ListenerId)) (id other : ListenerId) :
    Prop :=
  id ∉ pins ∧ ∃ owned, (id, owned) ∈ l.all ∧ other ∈ owned

variable {pins ids : List ListenerId} {l : Listeners (List ListenerId)}

@[simp] theorem released_nil : released pins [] l = [] := by
  rw [released]

theorem released_cons (id : ListenerId) (rest : List ListenerId) : released pins (id :: rest) l =
    id :: released pins (droppedBy pins id l ++ rest) (l.remove id).2 := by
  rw [released]

theorem mem_droppedBy_iff (h : l.Numbered) {id other : ListenerId} :
    other ∈ droppedBy pins id l ↔ Passes pins l id other := by
  unfold droppedBy Passes
  split
  · next hpin => simp [hpin]
  · next hpin => simp [hpin, h.mem_removed_iff]

theorem passes_remove_iff (h : l.Numbered) {id a b : ListenerId} :
    Passes pins (l.remove id).2 a b ↔ a ≠ id ∧ Passes pins l a b := by
  simp only [Passes, h.mem_all_remove_iff]
  constructor
  · rintro ⟨hpin, owned, ⟨hmem, hne⟩, hb⟩
    exact ⟨hne, hpin, owned, hmem, hb⟩
  · rintro ⟨hne, hpin, owned, hmem, hb⟩
    exact ⟨hpin, owned, ⟨hmem, hne⟩, hb⟩

/-- A cascade removes the listeners of the subscriptions it releases, and nothing else. -/
theorem on_releaseAll (h : l.Numbered) (c : Channel) :
    (releaseAll pins ids l).on c = (l.on c).filter (·.1 ∉ released pins ids l) := by
  induction ids, l using released.induct pins with
  | case1 l =>
    rw [releaseAll_nil, released_nil]
    exact (List.filter_eq_self.mpr (by simp)).symm
  | case2 id rest l ih =>
    rw [releaseAll_cons, released_cons, ih (h.remove id), h.on_remove, List.filter_filter]
    apply List.filter_congr
    intro e _
    simp [Bool.and_comm]

/-- What a cascade releases is what can be reached along ownership. -/
theorem mem_released_iff (h : l.Numbered) {x : ListenerId} :
    x ∈ released pins ids l ↔ ∃ id ∈ ids, Relation.ReflTransGen (Passes pins l) id x := by
  induction ids, l using released.induct pins with
  | case1 l => simp
  | case2 id rest l ih =>
    have hpasses : Passes pins (l.remove id).2 = fun a b => a ≠ id ∧ Passes pins l a b := by
      funext a b
      exact propext (passes_remove_iff h)
    rw [released_cons, exists_reflTransGen_cons_iff, List.mem_cons, ih (h.remove id), hpasses]
    simp only [List.mem_append, mem_droppedBy_iff h]

end Publisher

end DiagnosticRelay
