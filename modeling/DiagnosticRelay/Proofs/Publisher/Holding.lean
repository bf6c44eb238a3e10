import Mathlib.Data.List.Nodup
import Mathlib.Data.List.Perm.Lattice
import DiagnosticRelay.Proofs.Publisher.Cascade

/-!
# Who holds a subscription

A subscription is the host's to release, or owned by a listener and released with it. `Tied` says
that every registered listener's subscription is in exactly one place, either free or owned by one
of the listeners that are registered or kept by a delivery, and that there are no others. A release
takes the subscription from its place and frees those that its listener owned (`Tied.release`), so a
cascade that begins with free subscriptions keeps the rest tied (`Tied.releaseAll`). A gift takes a
free subscription to an owner, which may be the subscription's own listener (`Tied.give`).
-/

namespace DiagnosticRelay

namespace Listeners

variable {α : Type} {l : Listeners α}

theorem mem_all_register_iff (h : l.isClosed = false) {c : Channel} {a : α}
    {e : ListenerId × α} : e ∈ (l.register c a).2.all ↔ e ∈ l.all ∨ e = (l.lastId + 1, a) := by
  cases c with
  | updates => simp [register, h, all, or_assoc, or_comm (a := e ∈ l.invalidations)]
  | invalidations => simp [register, h, all, or_assoc]

theorem Numbered.le_of_mem_all (h : l.Numbered) {e : ListenerId × α} (he : e ∈ l.all) :
    e.1 ≤ l.lastId := by
  obtain ⟨c, he⟩ := mem_all_iff.mp he
  exact h.le_lastId c e.1 (List.mem_map_of_mem he)

end Listeners

namespace Publisher

/-- The listeners that the deliveries in progress keep. -/
def kept (deliveries : List Delivery) : List Entry :=
  deliveries.flatMap fun d => d.current :: d.waiting

theorem pinned_eq_map_kept (deliveries : List Delivery) :
    pinned deliveries = (kept deliveries).map Prod.fst := by
  simp only [pinned, kept, List.map_flatMap]
  rfl

/-- Of the listeners that are registered or kept, every one that is registered has its subscription
in one place: it is free, or owned by one of them. -/
structure Tied (l : Listeners (List ListenerId)) (kept : List Entry) (free : List ListenerId) :
    Prop where
  numbered : l.Numbered
  given : ∀ e ∈ kept, e.1 ≤ l.lastId
  same : ∀ e ∈ l.all ++ kept, ∀ e' ∈ l.all ++ kept, e.1 = e'.1 → e = e'
  place : ∀ id, l.isRegistered id = true ↔ id ∈ free ∨ ∃ e ∈ l.all ++ kept, id ∈ e.2
  nodup : free.Nodup
  nodup_owned : ∀ e ∈ l.all ++ kept, e.2.Nodup
  notFree : ∀ e ∈ l.all ++ kept, ∀ id ∈ e.2, id ∉ free
  owner : ∀ e ∈ l.all ++ kept, ∀ e' ∈ l.all ++ kept, ∀ id ∈ e.2, id ∈ e'.2 → e = e'

namespace Tied

variable {l l' : Listeners (List ListenerId)} {kept kept' : List Entry}
  {free free' ids : List ListenerId} {id : ListenerId}

/-- Fewer listeners own no more than before. -/
theorem of_subset (h : Tied l kept free) (hnumbered : l'.Numbered)
    (hgiven : ∀ e ∈ kept', e.1 ≤ l'.lastId)
    (hsub : ∀ e ∈ l'.all ++ kept', e ∈ l.all ++ kept)
    (hplace : ∀ id, l'.isRegistered id = true ↔ id ∈ free' ∨ ∃ e ∈ l'.all ++ kept', id ∈ e.2)
    (hnodup : free'.Nodup) (hnotFree : ∀ e ∈ l'.all ++ kept', ∀ id ∈ e.2, id ∉ free') :
    Tied l' kept' free' where
  numbered := hnumbered
  given := hgiven
  same e he e' he' := h.same e (hsub e he) e' (hsub e' he')
  place := hplace
  nodup := hnodup
  nodup_owned e he := h.nodup_owned e (hsub e he)
  notFree := hnotFree
  owner e he e' he' := h.owner e (hsub e he) e' (hsub e' he')

/-- The same listeners, in whatever order and however often they are kept. -/
theorem of_mem_iff (h : Tied l kept free)
    (hmem : ∀ e, e ∈ l.all ++ kept' ↔ e ∈ l.all ++ kept) : Tied l kept' free := by
  refine h.of_subset h.numbered ?_ (fun e he => (hmem e).mp he) ?_ h.nodup
    fun e he => h.notFree e ((hmem e).mp he)
  · intro e he
    rcases List.mem_append.mp ((hmem e).mp (List.mem_append_right _ he)) with he | he
    · exact h.numbered.le_of_mem_all he
    · exact h.given e he
  · simpa only [hmem] using h.place

theorem of_perm (h : Tied l kept free) (hperm : free.Perm free') : Tied l kept free' := by
  refine h.of_subset h.numbered h.given (fun e he => he) ?_ (hperm.nodup_iff.mp h.nodup) ?_
  · simpa only [hperm.mem_iff] using h.place
  · simpa only [hperm.mem_iff] using h.notFree

theorem isRegistered_of_free (h : Tied l kept free) (hid : id ∈ free) : l.isRegistered id = true :=
  (h.place id).mpr (.inl hid)

theorem exists_of_free (h : Tied l kept free) (hid : id ∈ free) : ∃ owned, (id, owned) ∈ l.all := by
  obtain ⟨⟨_, owned⟩, hmem, rfl⟩ := Listeners.isRegistered_iff.mp (h.isRegistered_of_free hid)
  exact ⟨owned, hmem⟩

/-- Once a listener is removed its entry is there only if it is kept. -/
theorem mem_remove_iff (h : Tied l kept free) {e : Entry} :
    e ∈ (l.remove id).2.all ++ kept ↔ e ∈ l.all ++ kept ∧ (e.1 = id → e ∈ kept) := by
  simp only [List.mem_append, h.numbered.mem_all_remove_iff]
  tauto

theorem frees_iff (h : Tied l kept free) {owned : List ListenerId}
    (hmem : (id, owned) ∈ l.all) {x : ListenerId} :
    x ∈ droppedBy (kept.map Prod.fst) id l ↔ id ∉ kept.map Prod.fst ∧ x ∈ owned := by
  simp only [droppedBy, h.numbered.removed_eq hmem]
  split <;> simp_all

/-- After a release every registered listener has its subscription in a place again. -/
theorem place_remove (h : Tied l kept (id :: free)) {x : ListenerId} :
    (l.remove id).2.isRegistered x = true ↔ x ∈ droppedBy (kept.map Prod.fst) id l ++ free ∨
      ∃ e ∈ (l.remove id).2.all ++ kept, x ∈ e.2 := by
  obtain ⟨owned, hmem⟩ := h.exists_of_free List.mem_cons_self
  have hin : (id, owned) ∈ l.all ++ kept := List.mem_append_left _ hmem
  have hid := (List.nodup_cons.mp h.nodup).1
  have hne {e : Entry} (he : e ∈ l.all ++ kept) (hx : x ∈ e.2) : x ≠ id := by
    rintro rfl
    exact h.notFree e he _ hx List.mem_cons_self
  rw [h.numbered.isRegistered_remove_iff, h.place x, List.mem_append, h.frees_iff hmem,
    List.mem_cons]
  constructor
  · rintro ⟨(rfl | hx) | ⟨e, he, hx⟩, hnot⟩
    · exact absurd rfl hnot
    · exact .inl (.inr hx)
    · by_cases hkept : e.1 = id → e ∈ kept
      · exact .inr ⟨e, h.mem_remove_iff.mpr ⟨he, hkept⟩, hx⟩
      · -- the owner is the listener that is removed, and it is not kept
        obtain ⟨heid, hlost⟩ := Classical.not_imp.mp hkept
        obtain rfl := h.same e he _ hin heid
        refine .inl (.inl ⟨?_, hx⟩)
        intro hpinned
        obtain ⟨e', he', heq⟩ := List.mem_map.mp hpinned
        rw [h.same e' (List.mem_append_right _ he') _ hin heq] at he'
        exact hlost he'
  · rintro ((⟨_, hx⟩ | hx) | ⟨e, he, hx⟩)
    · exact ⟨.inr ⟨_, hin, hx⟩, hne hin hx⟩
    · exact ⟨.inl (.inr hx), fun heq => hid (heq ▸ hx)⟩
    · have hold := (h.mem_remove_iff.mp he).1
      exact ⟨.inr ⟨e, hold, hx⟩, hne hold hx⟩

/-- A release takes one free subscription away and frees those that its listener owned, unless the
listener is kept. -/
theorem release (h : Tied l kept (id :: free)) :
    Tied (l.remove id).2 kept (droppedBy (kept.map Prod.fst) id l ++ free) := by
  obtain ⟨owned, hmem⟩ := h.exists_of_free List.mem_cons_self
  have hin : (id, owned) ∈ l.all ++ kept := List.mem_append_left _ hmem
  have hold {e : Entry} (he : e ∈ (l.remove id).2.all ++ kept) : e ∈ l.all ++ kept :=
    (h.mem_remove_iff.mp he).1
  apply h.of_subset (h.numbered.remove id) h.given (fun e => hold) fun x => h.place_remove
  · refine List.nodup_append.mpr ⟨?_, (List.nodup_cons.mp h.nodup).2, ?_⟩
    · simp only [droppedBy, h.numbered.removed_eq hmem]
      split
      · exact List.nodup_nil
      · simpa using h.nodup_owned _ hin
    · rintro x hx y hy rfl
      exact h.notFree _ hin x ((h.frees_iff hmem).mp hx).2 (List.mem_cons_of_mem _ hy)
  · intro e he x hx hfree
    rcases List.mem_append.mp hfree with hx' | hx'
    · obtain ⟨hnot, hx'⟩ := (h.frees_iff hmem).mp hx'
      obtain rfl := h.owner e (hold he) _ hin x hx hx'
      exact hnot (List.mem_map_of_mem ((h.mem_remove_iff.mp he).2 rfl))
    · exact h.notFree e (hold he) x hx (List.mem_cons_of_mem _ hx')

/-- A cascade that begins with free subscriptions releases only those of registered listeners, and
keeps the rest tied. -/
theorem releaseAll (h : Tied l kept (ids ++ free)) :
    Tied (releaseAll (kept.map Prod.fst) ids l) kept free ∧
      ∀ id ∈ released (kept.map Prod.fst) ids l, l.isRegistered id = true := by
  induction ids, l using released.induct (kept.map Prod.fst) with
  | case1 l =>
    rw [releaseAll_nil, released_nil]
    exact ⟨h, List.forall_mem_nil _⟩
  | case2 id rest l ih =>
    obtain ⟨htied, hreleased⟩ := ih (by rw [List.append_assoc]; exact h.release)
    rw [releaseAll_cons, released_cons]
    refine ⟨htied, List.forall_mem_cons.mpr ⟨h.isRegistered_of_free List.mem_cons_self, ?_⟩⟩
    intro x hx
    exact (h.numbered.isRegistered_remove_iff.mp (hreleased x hx)).1

/-- A listener that is neither registered nor kept any more leaves its subscriptions free. -/
theorem dropped {e : Entry} (h : Tied l (e :: kept) free) (hregistered : l.isRegistered e.1 = false)
    (hkept : e.1 ∉ kept.map Prod.fst) : Tied l kept (e.2 ++ free) := by
  have hin : e ∈ l.all ++ e :: kept := List.mem_append_right _ List.mem_cons_self
  have hmem (e' : Entry) : e' ∈ l.all ++ e :: kept ↔ e' = e ∨ e' ∈ l.all ++ kept := by
    simp only [List.mem_append, List.mem_cons]
    tauto
  have hne {e' : Entry} (he' : e' ∈ l.all ++ kept) : e' ≠ e := by
    rintro rfl
    rcases List.mem_append.mp he' with he' | he'
    · rw [Listeners.isRegistered_iff.mpr ⟨e', he', rfl⟩] at hregistered
      cases hregistered
    · exact hkept (List.mem_map_of_mem he')
  refine h.of_subset h.numbered (fun e' he' => h.given e' (List.mem_cons_of_mem _ he'))
    (fun e' he' => (hmem e').mpr (.inr he')) ?_ ?_ ?_
  · intro x
    have howned : (∃ e' ∈ l.all ++ e :: kept, x ∈ e'.2) ↔
        x ∈ e.2 ∨ ∃ e' ∈ l.all ++ kept, x ∈ e'.2 := by
      simp only [hmem, or_and_right, exists_or, exists_eq_left]
    rw [h.place x, howned, List.mem_append, or_left_comm, or_assoc]
  · refine List.nodup_append.mpr ⟨h.nodup_owned e hin, h.nodup, ?_⟩
    rintro x hx y hy rfl
    exact h.notFree e hin x hx hy
  · intro e' he' x hx hfree
    have hold := (hmem e').mpr (.inr he')
    rcases List.mem_append.mp hfree with hx' | hx'
    · exact hne he' (h.owner e' hold e hin x hx hx')
    · exact h.notFree e' hold x hx hx'

/-- A new listener takes over subscriptions that were free, and its own one is free. -/
theorem register {owned : List ListenerId} (h : Tied l kept free) (hopen : l.isClosed = false)
    (c : Channel) (howned : owned.Nodup) (hsub : ∀ id ∈ owned, id ∈ free) :
    Tied (l.register c owned).2 kept (free.filter (· ∉ owned) ++ [l.lastId + 1]) := by
  have hlast := (Listeners.register_of_not_isClosed hopen c owned).2
  have hold {e : Entry} (he : e ∈ l.all ++ kept) : e.1 ≤ l.lastId :=
    (List.mem_append.mp he).elim h.numbered.le_of_mem_all (h.given e)
  have hmem (e : Entry) : e ∈ (l.register c owned).2.all ++ kept ↔
      e ∈ l.all ++ kept ∨ e = (l.lastId + 1, owned) := by
    simp only [List.mem_append, Listeners.mem_all_register_iff hopen]
    tauto
  have hregistered (id : ListenerId) : (l.register c owned).2.isRegistered id = true ↔
      l.isRegistered id = true ∨ id = l.lastId + 1 := by
    simp only [Listeners.isRegistered_iff, Listeners.mem_all_register_iff hopen, or_and_right,
      exists_or, exists_eq_left, eq_comm (a := l.lastId + 1)]
  have hnew {id : ListenerId} (hid : l.isRegistered id = true) : id ≠ l.lastId + 1 := by
    obtain ⟨e, he, rfl⟩ := Listeners.isRegistered_iff.mp hid
    exact Nat.ne_of_lt (Nat.lt_succ_of_le (h.numbered.le_of_mem_all he))
  have hfree (id : ListenerId) : id ∈ free.filter (· ∉ owned) ++ [l.lastId + 1] ↔
      (id ∈ free ∧ id ∉ owned) ∨ id = l.lastId + 1 := by simp
  constructor
  case numbered => exact h.numbered.register c owned
  case given =>
    intro e he
    rw [hlast]
    exact Nat.le_succ_of_le (h.given e he)
  case same =>
    intro e he e' he' hid
    rcases (hmem e).mp he with he | rfl
    · rcases (hmem e').mp he' with he' | rfl
      · exact h.same e he e' he' hid
      · exact absurd hid (Nat.ne_of_lt (Nat.lt_succ_of_le (hold he)))
    · rcases (hmem e').mp he' with he' | rfl
      · exact absurd hid.symm (Nat.ne_of_lt (Nat.lt_succ_of_le (hold he')))
      · rfl
  case place =>
    intro id
    have howned' : (∃ e ∈ (l.register c owned).2.all ++ kept, id ∈ e.2) ↔
        (∃ e ∈ l.all ++ kept, id ∈ e.2) ∨ id ∈ owned := by
      simp only [hmem, or_and_right, exists_or, exists_eq_left]
    have hsub := hsub id
    rw [hregistered, h.place id, howned', hfree]
    generalize (∃ e ∈ l.all ++ kept, id ∈ e.2) = elsewhere
    tauto
  case nodup =>
    refine List.nodup_append.mpr ⟨h.nodup.filter _, List.nodup_singleton _, ?_⟩
    rintro id hid _ hlast' rfl
    obtain rfl := List.mem_singleton.mp hlast'
    exact hnew (h.isRegistered_of_free (List.mem_filter.mp hid).1) rfl
  case nodup_owned =>
    intro e he
    rcases (hmem e).mp he with he | rfl
    · exact h.nodup_owned e he
    · exact howned
  case notFree =>
    intro e he id hid hfree'
    rcases (hmem e).mp he with he | rfl
    · rcases (hfree id).mp hfree' with ⟨hfree', _⟩ | rfl
      · exact h.notFree e he id hid hfree'
      · exact hnew ((h.place _).mpr (.inr ⟨e, he, hid⟩)) rfl
    · rcases (hfree id).mp hfree' with ⟨_, hnot⟩ | rfl
      · exact hnot hid
      · exact hnew (h.isRegistered_of_free (hsub _ hid)) rfl
  case owner =>
    intro e he e' he' id hid hid'
    rcases (hmem e).mp he with he | rfl
    · rcases (hmem e').mp he' with he' | rfl
      · exact h.owner e he e' he' id hid hid'
      · exact absurd (hsub id hid') (h.notFree e he id hid)
    · rcases (hmem e').mp he' with he' | rfl
      · exact absurd (hsub id hid) (h.notFree e' he' id hid')
      · rfl

/-- A listener is given a subscription that was free. -/
theorem give {owner : ListenerId} (h : Tied l kept free) (hid : id ∈ free)
    (howner : ∃ e ∈ l.all ++ kept, e.1 = owner) :
    Tied (l.map (endow owner id)) (kept.map (endow owner id)) (free.filter (· ≠ id)) := by
  have hids (c : Channel) : (l.map (endow owner id)).ids c = l.ids c :=
    Listeners.ids_map (endow_fst owner id) l c
  have hmem (e : Entry) : e ∈ (l.map (endow owner id)).all ++ kept.map (endow owner id) ↔
      ∃ d ∈ l.all ++ kept, endow owner id d = e := by
    rw [Listeners.all_map, ← List.map_append, List.mem_map]
  have howns (d : Entry) (x : ListenerId) :
      x ∈ (endow owner id d).2 ↔ x ∈ d.2 ∨ (d.1 = owner ∧ x = id) := by
    unfold endow
    split <;> simp_all
  have hfree (x : ListenerId) : x ∈ free.filter (· ≠ id) ↔ x ∈ free ∧ x ≠ id := by simp
  -- what is given was nobody's, so it is owned by its new owner alone
  have hnot {d : Entry} (hd : d ∈ l.all ++ kept) : id ∉ d.2 :=
    fun hmem => h.notFree d hd id hmem hid
  constructor
  case numbered =>
    exact h.numbered.of_sublist (fun c => hids c ▸ List.Sublist.refl _) (Nat.le_refl _)
  case given =>
    intro e he
    obtain ⟨d, hd, rfl⟩ := List.mem_map.mp he
    rw [endow_fst]
    exact h.given d hd
  case same =>
    intro e he e' he' heq
    obtain ⟨d, hd, rfl⟩ := (hmem e).mp he
    obtain ⟨d', hd', rfl⟩ := (hmem e').mp he'
    rw [endow_fst, endow_fst] at heq
    rw [h.same d hd d' hd' heq]
  case place =>
    intro x
    have hregistered : (l.map (endow owner id)).isRegistered x = l.isRegistered x := by
      simp [Listeners.isRegistered, Function.comp_def, endow_fst]
    rw [hregistered, h.place x, hfree]
    constructor
    · rintro (hx | ⟨d, hd, hx⟩)
      · by_cases hxid : x = id
        · obtain ⟨d, hd, hdowner⟩ := howner
          exact .inr ⟨_, (hmem _).mpr ⟨d, hd, rfl⟩, (howns d x).mpr (.inr ⟨hdowner, hxid⟩)⟩
        · exact .inl ⟨hx, hxid⟩
      · exact .inr ⟨_, (hmem _).mpr ⟨d, hd, rfl⟩, (howns d x).mpr (.inl hx)⟩
    · rintro (⟨hx, _⟩ | ⟨e, he, hx⟩)
      · exact .inl hx
      · obtain ⟨d, hd, rfl⟩ := (hmem e).mp he
        rcases (howns d x).mp hx with hx | ⟨_, rfl⟩
        · exact .inr ⟨d, hd, hx⟩
        · exact .inl hid
  case nodup => exact h.nodup.filter _
  case nodup_owned =>
    intro e he
    obtain ⟨d, hd, rfl⟩ := (hmem e).mp he
    unfold endow
    split
    · refine List.nodup_append.mpr ⟨h.nodup_owned d hd, List.nodup_singleton _, ?_⟩
      rintro x hx _ hxid rfl
      exact hnot hd (List.mem_singleton.mp hxid ▸ hx)
    · exact h.nodup_owned d hd
  case notFree =>
    intro e he x hx hxfree
    obtain ⟨d, hd, rfl⟩ := (hmem e).mp he
    obtain ⟨hxfree, hne⟩ := (hfree x).mp hxfree
    rcases (howns d x).mp hx with hx | ⟨_, rfl⟩
    · exact h.notFree d hd x hx hxfree
    · exact hne rfl
  case owner =>
    intro e he e' he' x hx hx'
    obtain ⟨d, hd, rfl⟩ := (hmem e).mp he
    obtain ⟨d', hd', rfl⟩ := (hmem e').mp he'
    rcases (howns d x).mp hx with hold | ⟨hdowner, hxid⟩
    · rcases (howns d' x).mp hx' with hold' | ⟨_, hxid⟩
      · rw [h.owner d hd d' hd' x hold hold']
      · exact absurd (hxid ▸ hold) (hnot hd)
    · rcases (howns d' x).mp hx' with hold' | ⟨hdowner', _⟩
      · exact absurd (hxid ▸ hold') (hnot hd')
      · rw [h.same d hd d' hd' (hdowner.trans hdowner'.symm)]

/-- Where no listener is kept, the registered listeners' subscriptions are the free ones and those
that they own. -/
theorem perm (h : Tied l [] free) :
    (l.all.map Prod.fst).Perm (free ++ l.all.flatMap Prod.snd) := by
  have hall (e : Entry) : e ∈ l.all ++ [] ↔ e ∈ l.all := by rw [List.append_nil]
  have howned : (l.all.flatMap Prod.snd).Nodup := by
    refine List.nodup_flatMap.mpr ⟨fun e he => h.nodup_owned e ((hall e).mpr he), ?_⟩
    refine (List.Nodup.of_map _ h.numbered.nodup_all).imp_of_mem ?_
    intro e e' he he' hne id hid hid'
    exact hne (h.owner e ((hall e).mpr he) e' ((hall e').mpr he') id hid hid')
  refine (List.perm_ext_iff_of_nodup h.numbered.nodup_all ?_).mpr ?_
  · refine List.nodup_append.mpr ⟨h.nodup, howned, ?_⟩
    rintro id hid _ hmem rfl
    obtain ⟨e, he, hid'⟩ := List.mem_flatMap.mp hmem
    exact h.notFree e ((hall e).mpr he) id hid' hid
  · intro id
    rw [List.mem_append, List.mem_flatMap, List.mem_map, ← Listeners.isRegistered_iff, h.place id]
    simp only [hall]

end Tied

end Publisher

end DiagnosticRelay
