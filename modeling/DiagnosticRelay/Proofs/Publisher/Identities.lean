import DiagnosticRelay.Publisher.Release

/-!
# Identities of listeners

Identities are counted up over both channels and never given out again. So the listeners of a
channel stand in ascending order, which is the order they were registered in, and an identity is on
one channel only: listeners are `Numbered`. Whatever is done with a publisher, its listeners only
leave, or come under an identity that is `New`; both hold of every run.
-/

namespace DiagnosticRelay

namespace Listeners

variable {α : Type}

/-- The identities of a channel's listeners, in registration order. -/
def ids (l : Listeners α) (c : Channel) : List ListenerId := (l.on c).map Prod.fst

@[simp] theorem ids_empty (c : Channel) : (empty : Listeners α).ids c = [] := by
  cases c <;> rfl

@[simp] theorem ids_close (l : Listeners α) (c : Channel) : l.close.ids c = [] := by
  cases c <;> rfl

theorem register_of_not_isClosed {l : Listeners α} (h : l.isClosed = false) (c : Channel) (a : α) :
    (l.register c a).1 = some (l.lastId + 1) ∧ (l.register c a).2.lastId = l.lastId + 1 := by
  cases c <;> simp [register, h]

theorem ids_register {l : Listeners α} (h : l.isClosed = false) (c d : Channel) (a : α) :
    (l.register c a).2.ids d = if d = c then l.ids d ++ [l.lastId + 1] else l.ids d := by
  cases c <;> cases d <;> simp [register, h, ids, on]

/-- Changing what listeners own leaves their identities as they are. -/
theorem ids_map {f : ListenerId × α → ListenerId × α} (hf : ∀ e, (f e).1 = e.1)
    (l : Listeners α) (c : Channel) : (l.map f).ids c = l.ids c := by
  simp [ids, Function.comp_def, hf]

theorem ids_remove_sublist (l : Listeners α) (id : ListenerId) (c : Channel) :
    ((l.remove id).2.ids c).Sublist (l.ids c) := by
  cases c with
  | updates => exact (Table.take_sublist id l.updates).map Prod.fst
  | invalidations => exact (Table.take_sublist id l.invalidations).map Prod.fst

/-- Identities ascend on each channel, up to the last one given out, and none is on both. -/
structure Numbered (l : Listeners α) : Prop where
  ascending : ∀ c, (l.ids c).Pairwise (· < ·)
  le_lastId : ∀ c, ∀ id ∈ l.ids c, id ≤ l.lastId
  apart : ∀ c d id, id ∈ l.ids c → id ∈ l.ids d → c = d

/-- The listeners after some time: identities were given out after those before. -/
structure Succeeds (l l' : Listeners α) : Prop where
  lastId : l.lastId ≤ l'.lastId
  ids : ∀ c, ∀ id ∈ l'.ids c, id ∈ l.ids c ∨ l.lastId < id

namespace Numbered

variable {l : Listeners α}

theorem of_empty : (empty : Listeners α).Numbered :=
  ⟨fun c => by simp, fun c => by simp, fun c d => by simp⟩

/-- Listeners that leave take nothing from the order of the others. -/
theorem of_sublist {l' : Listeners α} (h : l.Numbered) (hids : ∀ c, (l'.ids c).Sublist (l.ids c))
    (hlast : l.lastId ≤ l'.lastId) : l'.Numbered where
  ascending c := (h.ascending c).sublist (hids c)
  le_lastId c id hid := Nat.le_trans (h.le_lastId c id ((hids c).subset hid)) hlast
  apart c d id hc hd := h.apart c d id ((hids c).subset hc) ((hids d).subset hd)

theorem register (h : l.Numbered) (c : Channel) (a : α) : (l.register c a).2.Numbered := by
  cases hclosed : l.isClosed with
  | true =>
    rw [register_of_isClosed hclosed]
    exact h
  | false =>
    have hlast := (register_of_not_isClosed hclosed c a).2
    have hold (d : Channel) (id : ListenerId) (hid : id ∈ (l.register c a).2.ids d) :
        id ∈ l.ids d ∨ (id = l.lastId + 1 ∧ d = c) := by
      rw [ids_register hclosed] at hid
      split at hid
      · next hd =>
        rcases List.mem_append.mp hid with hid | hid
        · exact .inl hid
        · exact .inr ⟨List.mem_singleton.mp hid, hd⟩
      · exact .inl hid
    have hnew (d : Channel) : l.lastId + 1 ∉ l.ids d :=
      fun hid => Nat.not_succ_le_self _ (h.le_lastId d _ hid)
    constructor
    case ascending =>
      intro d
      rw [ids_register hclosed]
      split
      · refine List.pairwise_append.mpr ⟨h.ascending d, List.pairwise_singleton _ _, ?_⟩
        intro id hid id' hid'
        rw [List.mem_singleton.mp hid']
        exact Nat.lt_succ_of_le (h.le_lastId d id hid)
      · exact h.ascending d
    case le_lastId =>
      intro d id hid
      rw [hlast]
      rcases hold d id hid with hid | ⟨rfl, _⟩
      · exact Nat.le_succ_of_le (h.le_lastId d id hid)
      · exact Nat.le_refl _
    case apart =>
      intro d e id hd he
      rcases hold d id hd with hd | ⟨rfl, rfl⟩
      · rcases hold e id he with he | ⟨rfl, _⟩
        · exact h.apart d e id hd he
        · exact absurd hd (hnew d)
      · rcases hold e _ he with he | ⟨_, rfl⟩
        · exact absurd he (hnew e)
        · rfl

end Numbered

namespace Succeeds

theorem refl (l : Listeners α) : l.Succeeds l := ⟨Nat.le_refl _, fun _ _ hid => .inl hid⟩

theorem trans {l l' l'' : Listeners α} (h : l.Succeeds l') (h' : l'.Succeeds l'') :
    l.Succeeds l'' where
  lastId := Nat.le_trans h.lastId h'.lastId
  ids := by
    intro c id hid
    rcases h'.ids c id hid with hid | hlt
    · exact h.ids c id hid
    · exact .inr (Nat.lt_of_le_of_lt h.lastId hlt)

theorem register (l : Listeners α) (c : Channel) (a : α) : l.Succeeds (l.register c a).2 := by
  cases hclosed : l.isClosed with
  | true =>
    rw [register_of_isClosed hclosed]
    exact refl l
  | false =>
    refine ⟨?_, ?_⟩
    · rw [(register_of_not_isClosed hclosed c a).2]
      exact Nat.le_succ _
    · intro d id hid
      rw [ids_register hclosed] at hid
      split at hid
      · rcases List.mem_append.mp hid with hid | hid
        · exact .inl hid
        · rw [List.mem_singleton.mp hid]
          exact .inr (Nat.lt_succ_self _)
      · exact .inl hid

theorem of_sublist {l l' : Listeners α} (hids : ∀ c, (l'.ids c).Sublist (l.ids c))
    (hlast : l.lastId ≤ l'.lastId) : l.Succeeds l' :=
  ⟨hlast, fun c _ hid => .inl ((hids c).subset hid)⟩

end Succeeds

end Listeners

namespace Publisher

theorem endow_fst (owner id : ListenerId) (e : Entry) : (endow owner id e).1 = e.1 := by
  unfold endow
  split <;> rfl

/-- What every removal keeps, a cascade of releases keeps. -/
theorem releaseAll_keeps {P : Listeners (List ListenerId) → Prop}
    (hremove : ∀ l id, P l → P (l.remove id).2) (pins ids : List ListenerId)
    {l : Listeners (List ListenerId)} (h : P l) : P (releaseAll pins ids l) := by
  unfold releaseAll
  generalize ids.length + ownedCount l.all = n
  induction n generalizing ids l with
  | zero =>
    cases ids with
    | nil => exact h
    | cons id rest => exact h
  | succ n ih =>
    cases ids with
    | nil => exact h
    | cons id rest =>
      rw [releaseWithin_cons]
      exact ih _ (hremove l id h)

/-- Releases only take listeners away. -/
theorem sublist_releaseAll (pins ids : List ListenerId) (l : Listeners (List ListenerId)) :
    (∀ c, ((releaseAll pins ids l).ids c).Sublist (l.ids c)) ∧
      (releaseAll pins ids l).lastId = l.lastId := by
  refine releaseAll_keeps (P := fun l' => (∀ c, (l'.ids c).Sublist (l.ids c)) ∧
    l'.lastId = l.lastId) ?_ pins ids ⟨fun c => List.Sublist.refl _, rfl⟩
  rintro l' id ⟨hids, hlast⟩
  exact ⟨fun c => (l'.ids_remove_sublist id c).trans (hids c), hlast⟩

theorem sublist_dropIfUnused (pins : List ListenerId) (e : Entry)
    (l : Listeners (List ListenerId)) :
    (∀ c, ((dropIfUnused pins e l).ids c).Sublist (l.ids c)) ∧
      (dropIfUnused pins e l).lastId = l.lastId := by
  unfold dropIfUnused
  split
  · exact ⟨fun c => List.Sublist.refl _, rfl⟩
  · exact sublist_releaseAll pins e.2 l

theorem listeners_callNext (p : Publisher) (serial : Nat) (notice : Notice)
    (waiting : List Entry) : (callNext p serial notice waiting).1.listeners = p.listeners := by
  cases waiting <;> rfl

/-- Along a step listeners leave, or come under a new identity, and stay numbered. -/
theorem listeners_step (p : Publisher) (m : Move) :
    p.listeners.Succeeds (p.step m).1.listeners ∧
      (p.listeners.Numbered → (p.step m).1.listeners.Numbered) := by
  have hleave {l : Listeners (List ListenerId)}
      (h : (∀ c, (l.ids c).Sublist (p.listeners.ids c)) ∧ l.lastId = p.listeners.lastId) :
      p.listeners.Succeeds l ∧ (p.listeners.Numbered → l.Numbered) :=
    ⟨.of_sublist h.1 (Nat.le_of_eq h.2.symm),
      fun hn => hn.of_sublist h.1 (Nat.le_of_eq h.2.symm)⟩
  cases m with
  | register channel owned =>
    have hsucceeds := Listeners.Succeeds.register p.listeners channel
      (owned.eraseDups.filter (· ∈ p.held))
    have hnumbered := fun hn : p.listeners.Numbered =>
      hn.register channel (owned.eraseDups.filter (· ∈ p.held))
    simp only [step]
    split
    · next heq =>
      rw [heq] at hsucceeds hnumbered
      exact ⟨hsucceeds, hnumbered⟩
    · next listeners heq =>
      rw [heq] at hsucceeds hnumbered
      have h := sublist_releaseAll (pinned p.deliveries) (owned.eraseDups.filter (· ∈ p.held))
        listeners
      have hlast := Nat.le_of_eq h.2.symm
      exact ⟨hsucceeds.trans (.of_sublist h.1 hlast), fun hn => (hnumbered hn).of_sublist h.1 hlast⟩
  | release id =>
    rw [step]
    split
    · exact hleave (sublist_releaseAll _ _ _)
    · exact ⟨.refl _, fun hn => hn⟩
  | give id owner =>
    rw [step]
    split
    · refine hleave ⟨fun c => ?_, rfl⟩
      simp only [Listeners.ids_map (endow_fst owner id), List.Sublist.refl]
    · exact ⟨.refl _, fun hn => hn⟩
  | publish notice =>
    rw [step, listeners_callNext]
    exact ⟨.refl _, fun hn => hn⟩
  | close => exact hleave ⟨fun c => by simp [step], rfl⟩
  | returns =>
    rw [step]
    split
    · exact ⟨.refl _, fun hn => hn⟩
    · rw [listeners_callNext]
      exact hleave (sublist_dropIfUnused _ _ _)

end Publisher

end DiagnosticRelay
