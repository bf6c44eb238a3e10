import Mathlib.Data.List.Induction
import DiagnosticRelay.Proofs.Publisher.Holding

/-!
# Listeners and subscriptions correspond

Registering a listener hands out a subscription, and releasing the subscription removes the
listener. What a run has handed out (`handedOut`) and what it has released (`releasedIn`) are read
off its moves. As long as the publisher is open, the listeners of a channel are those of the
subscriptions handed out for it and not released yet, in the order they were handed out
(`Booked`). When no delivery is in progress, every such subscription is held by the host or owned by
a registered listener, and a release removes what can be reached along ownership. Once the publisher
is closed nothing is registered any more. `run_corresponds` puts both together.
-/

namespace DiagnosticRelay.Publisher

/-- The subscription that an event hands out. -/
def Event.handedOut? : Event → Option ListenerId
  | .registered id => id
  | .called .. => none

/-- The subscriptions that a move hands out for a channel. -/
def handedOutBy (channel : Channel) (p : Publisher) (m : Move) : List ListenerId :=
  match m with
  | .register c _ => if c = channel then (p.step m).2.filterMap Event.handedOut? else []
  | _ => []

/-- The subscriptions that a run hands out for a channel, in order. -/
def handedOut (channel : Channel) (p : Publisher) : List Move → List ListenerId
  | [] => []
  | m :: ms => handedOutBy channel p m ++ handedOut channel (p.step m).1 ms

/-- The subscriptions that are released when a delivery is done with a listener. -/
def releasedByDrop (pins : List ListenerId) (e : Entry) (l : Listeners (List ListenerId)) :
    List ListenerId :=
  if l.isRegistered e.1 || e.1 ∈ pins then [] else released pins e.2 l

/-- The subscriptions that a move releases. -/
def releasedBy (p : Publisher) : Move → List ListenerId
  | .register _ owned =>
    if p.listeners.isClosed then
      released (pinned p.deliveries) (owned.eraseDups.filter (· ∈ p.held)) p.listeners
    else []
  | .release id => if id ∈ p.held then released (pinned p.deliveries) [id] p.listeners else []
  | .give .. | .publish _ => []
  | .close => (p.listeners.all.filter (·.1 ∉ pinned p.deliveries)).flatMap Prod.snd
  | .returns =>
    match p.deliveries with
    | [] => []
    | d :: deliveries =>
      releasedByDrop (d.waiting.map Prod.fst ++ pinned deliveries) d.current p.listeners

/-- The subscriptions that a run releases, in order. -/
def releasedIn (p : Publisher) : List Move → List ListenerId
  | [] => []
  | m :: ms => releasedBy p m ++ releasedIn (p.step m).1 ms

theorem nodup_eraseDups {α : Type} [BEq α] [LawfulBEq α] (xs : List α) : xs.eraseDups.Nodup := by
  induction hn : xs.length using Nat.strongRecOn generalizing xs with
  | ind n ih =>
    cases xs with
    | nil => simp
    | cons x xs =>
      rw [List.eraseDups_cons, List.nodup_cons]
      refine ⟨by simp, ih _ ?_ _ rfl⟩
      rw [← hn, List.length_cons]
      exact Nat.lt_succ_of_le (List.length_filter_le _ _)

theorem handedOut_append (channel : Channel) (p : Publisher) (ms ns : List Move) :
    handedOut channel p (ms ++ ns) =
      handedOut channel p ms ++ handedOut channel (p.run ms).1 ns := by
  induction ms generalizing p with
  | nil => simp [handedOut]
  | cons m ms ih => simp [handedOut, run_cons, ih]

theorem releasedIn_append (p : Publisher) (ms ns : List Move) :
    releasedIn p (ms ++ ns) = releasedIn p ms ++ releasedIn (p.run ms).1 ns := by
  induction ms generalizing p with
  | nil => simp [releasedIn]
  | cons m ms ih => simp [releasedIn, run_cons, ih]

/-! ## While the publisher is open -/

variable {p : Publisher}

theorem step_register (hopen : p.listeners.isClosed = false) (channel : Channel)
    (owned : List ListenerId) :
    p.step (.register channel owned) =
      ({ p with
          listeners :=
            (p.listeners.register channel (owned.eraseDups.filter (· ∈ p.held))).2
          held := p.held.filter (· ∉ owned.eraseDups.filter (· ∈ p.held)) ++
            [p.listeners.lastId + 1] },
        [.registered (some (p.listeners.lastId + 1))]) := by
  cases channel <;> simp [step, Listeners.register, hopen]

theorem handedOutBy_register (hopen : p.listeners.isClosed = false) (channel c : Channel)
    (owned : List ListenerId) : handedOutBy channel p (.register c owned) =
      if c = channel then [p.listeners.lastId + 1] else [] := by
  simp [handedOutBy, step_register hopen, Event.handedOut?]

theorem held_callNext (p : Publisher) (serial : Nat) (notice : Notice) (waiting : List Entry) :
    (callNext p serial notice waiting).1.held = p.held := by
  cases waiting <;> rfl

/-- Calling the next listener keeps it, and those that wait. -/
theorem kept_callNext (p : Publisher) (serial : Nat) (notice : Notice) (waiting : List Entry) :
    kept (callNext p serial notice waiting).1.deliveries = waiting ++ kept p.deliveries := by
  cases waiting <;> rfl

/-- What deliveries keep changes with their entries. -/
theorem kept_map (f : Entry → Entry) (deliveries : List Delivery) :
    kept (deliveries.map (Delivery.map f)) = (kept deliveries).map f := by
  simp only [kept, List.flatMap_map, List.map_flatMap]
  rfl

/-- The open publisher after a run that handed out and released some subscriptions. -/
structure Booked (p : Publisher) (handed : Channel → List ListenerId) (gone : List ListenerId) :
    Prop where
  isOpen : p.listeners.isClosed = false
  tied : Tied p.listeners (kept p.deliveries) p.held
  listed : ∀ c, p.listeners.ids c = (handed c).filter (· ∉ gone)
  gone : ∀ id ∈ gone, id ≤ p.listeners.lastId

namespace Booked

variable {handed : Channel → List ListenerId} {gone : List ListenerId}

theorem of_new : Booked new (fun _ => []) [] where
  isOpen := rfl
  tied := by
    refine ⟨.of_empty, ?_, ?_, ?_, ?_, ?_, ?_, ?_⟩ <;>
      simp [new, Listeners.empty, Listeners.all, kept, Listeners.isRegistered]
  listed := by simp [new]
  gone := List.forall_mem_nil _

/-- Subscriptions are handed out that are new, then some are released. -/
theorem next (h : p.Booked handed gone) {p' : Publisher} {new : Channel → List ListenerId}
    {rel : List ListenerId} (hopen : p'.listeners.isClosed = false)
    (htied : Tied p'.listeners (kept p'.deliveries) p'.held)
    (hlast : p.listeners.lastId ≤ p'.listeners.lastId)
    (hids : ∀ c, p'.listeners.ids c = (p.listeners.ids c ++ new c).filter (· ∉ rel))
    (hnew : ∀ c, ∀ id ∈ new c, p.listeners.lastId < id)
    (hrel : ∀ id ∈ rel, id ≤ p'.listeners.lastId) :
    p'.Booked (fun c => handed c ++ new c) (gone ++ rel) where
  isOpen := hopen
  tied := htied
  listed := by
    intro c
    have hkept : (new c).filter (· ∉ gone) = new c := by
      apply List.filter_eq_self.mpr
      intro id hid
      simpa using fun hmem => Nat.not_lt_of_le (h.gone id hmem) (hnew c id hid)
    rw [hids c, h.listed c, ← hkept, ← List.filter_append, List.filter_filter, hkept]
    apply List.filter_congr
    intro id _
    simp [Bool.and_comm]
  gone := by
    intro id hid
    rcases List.mem_append.mp hid with hid | hid
    · exact Nat.le_trans (h.gone id hid) hlast
    · exact hrel id hid

/-- A cascade that begins with subscriptions of the host, or of a listener that is dropped. -/
theorem releaseAll (h : p.Booked handed gone) {p' : Publisher} {kept' : List Entry}
    {ids : List ListenerId} (htied : Tied p.listeners kept' (ids ++ p'.held))
    (hkept : kept p'.deliveries = kept')
    (hlisteners : p'.listeners = Publisher.releaseAll (kept'.map Prod.fst) ids p.listeners) :
    p'.Booked (fun c => handed c ++ [])
      (gone ++ released (kept'.map Prod.fst) ids p.listeners) := by
  have hlast : p'.listeners.lastId = p.listeners.lastId := by
    rw [hlisteners]
    exact (sublist_releaseAll _ _ _).2
  refine h.next ?_ ?_ (Nat.le_of_eq hlast.symm) ?_ (fun _ _ hid => absurd hid List.not_mem_nil) ?_
  · rw [hlisteners]
    exact releaseAll_keeps (P := fun l => l.isClosed = false) (fun _ _ hl => hl) _ _ h.isOpen
  · rw [hkept, hlisteners]
    exact htied.releaseAll.1
  · intro c
    rw [hlisteners, Listeners.ids, on_releaseAll h.tied.numbered, List.append_nil, Listeners.ids,
      List.filter_map]
    rfl
  · intro id hid
    obtain ⟨e, he, rfl⟩ := Listeners.isRegistered_iff.mp (htied.releaseAll.2 id hid)
    rw [hlast]
    exact h.tied.numbered.le_of_mem_all he

/-- Nothing is handed out or released, and the same listeners are registered and kept. -/
theorem same (h : p.Booked handed gone) {p' : Publisher} (hlisteners : p'.listeners = p.listeners)
    (hheld : p'.held = p.held)
    (hkept : ∀ e, e ∈ p.listeners.all ++ kept p'.deliveries ↔
      e ∈ p.listeners.all ++ kept p.deliveries) :
    p'.Booked (fun c => handed c ++ []) (gone ++ []) := by
  refine h.next (by rw [hlisteners]; exact h.isOpen) ?_
    (Nat.le_of_eq (congrArg Listeners.lastId hlisteners.symm)) ?_
    (fun _ _ hid => absurd hid List.not_mem_nil) (List.forall_mem_nil _)
  · rw [hlisteners, hheld]
    exact h.tied.of_mem_iff hkept
  · intro c
    rw [hlisteners, List.append_nil]
    exact (List.filter_eq_self.mpr (by simp)).symm

theorem register (h : p.Booked handed gone) (channel : Channel) (owned : List ListenerId) :
    (p.step (.register channel owned)).1.Booked
      (fun c => handed c ++ handedOutBy c p (.register channel owned))
      (gone ++ releasedBy p (.register channel owned)) := by
  have hstep := step_register h.isOpen channel owned
  have hnone : releasedBy p (.register channel owned) = [] := by simp [releasedBy, h.isOpen]
  have hregister := Listeners.register_of_not_isClosed h.isOpen channel
    (owned.eraseDups.filter (· ∈ p.held))
  rw [hnone, hstep]
  refine h.next ?_ ?_ ?_ ?_ ?_ (List.forall_mem_nil _)
  · cases channel <;> simp [Listeners.register, h.isOpen]
  · refine h.tied.register h.isOpen channel ((nodup_eraseDups owned).filter _) ?_
    intro id hid
    simpa using (List.mem_filter.mp hid).2
  · rw [hregister.2]
    exact Nat.le_succ _
  · intro c
    rw [Listeners.ids_register h.isOpen, handedOutBy_register h.isOpen]
    by_cases hc : c = channel
    · simp [hc]
    · simp [hc, Ne.symm hc]
  · intro c id hid
    rw [handedOutBy_register h.isOpen] at hid
    split at hid
    · rw [List.mem_singleton.mp hid]
      exact Nat.lt_succ_self _
    · exact absurd hid List.not_mem_nil

theorem release (h : p.Booked handed gone) (id : ListenerId) :
    (p.step (.release id)).1.Booked (fun c => handed c ++ handedOutBy c p (.release id))
      (gone ++ releasedBy p (.release id)) := by
  by_cases hid : id ∈ p.held
  · have hheld : p.held.Perm ([id] ++ p.held.filter (· ≠ id)) := by
      have hrest : p.held.erase id = p.held.filter (· ≠ id) := by
        rw [h.tied.nodup.erase_eq_filter]
        apply List.filter_congr
        intro other _
        by_cases hother : other = id <;> simp [hother]
      rw [← hrest]
      exact List.perm_cons_erase hid
    simp only [step, hid, if_true, releasedBy, handedOutBy, pinned_eq_map_kept]
    exact h.releaseAll (h.tied.of_perm hheld) rfl rfl
  · simp only [step, hid, if_false, releasedBy, handedOutBy]
    exact h.same rfl rfl fun _ => Iff.rfl

theorem give (h : p.Booked handed gone) (id owner : ListenerId) :
    (p.step (.give id owner)).1.Booked (fun c => handed c ++ handedOutBy c p (.give id owner))
      (gone ++ releasedBy p (.give id owner)) := by
  by_cases hgiven :
      id ∈ p.held ∧ (p.listeners.isRegistered owner = true ∨ owner ∈ pinned p.deliveries)
  · simp only [step, if_pos hgiven, releasedBy, handedOutBy]
    refine h.next h.isOpen ?_ (Nat.le_refl _) ?_ (fun _ _ hid => absurd hid List.not_mem_nil)
      (List.forall_mem_nil _)
    · rw [kept_map]
      refine h.tied.give hgiven.1 ?_
      rcases hgiven.2 with hregistered | hpinned
      · obtain ⟨e, he, heq⟩ := Listeners.isRegistered_iff.mp hregistered
        exact ⟨e, List.mem_append_left _ he, heq⟩
      · rw [pinned_eq_map_kept] at hpinned
        obtain ⟨e, he, heq⟩ := List.mem_map.mp hpinned
        exact ⟨e, List.mem_append_right _ he, heq⟩
    · intro c
      rw [Listeners.ids_map (endow_fst owner id), List.append_nil]
      exact (List.filter_eq_self.mpr (by simp)).symm
  · simp only [step, if_neg hgiven, releasedBy, handedOutBy]
    exact h.same rfl rfl fun _ => Iff.rfl

theorem publish (h : p.Booked handed gone) (notice : Notice) :
    (p.step (.publish notice)).1.Booked (fun c => handed c ++ handedOutBy c p (.publish notice))
      (gone ++ releasedBy p (.publish notice)) := by
  refine h.same (listeners_callNext _ _ _ _) (held_callNext _ _ _ _) ?_
  intro e
  have hall (he : e ∈ p.listeners.on notice.channel) : e ∈ p.listeners.all :=
    Listeners.mem_all_iff.mpr ⟨_, he⟩
  rw [step, kept_callNext]
  simp only [List.mem_append]
  tauto

theorem returns (h : p.Booked handed gone) :
    (p.step .returns).1.Booked (fun c => handed c ++ handedOutBy c p .returns)
      (gone ++ releasedBy p .returns) := by
  cases hd : p.deliveries with
  | nil =>
    simp only [step, releasedBy, handedOutBy, hd]
    exact h.same rfl rfl fun _ => Iff.rfl
  | cons d deliveries =>
    have htied := h.tied
    rw [hd] at htied
    have htied : Tied p.listeners (d.current :: (d.waiting ++ kept deliveries)) p.held := htied
    have hpins : d.waiting.map Prod.fst ++ pinned deliveries =
        (d.waiting ++ kept deliveries).map Prod.fst := by
      rw [pinned_eq_map_kept, List.map_append]
    simp only [step, releasedBy, handedOutBy, hd, releasedByDrop, dropIfUnused, hpins]
    by_cases hused : p.listeners.isRegistered d.current.1 ∨
        d.current.1 ∈ (d.waiting ++ kept deliveries).map Prod.fst
    · have hstill : d.current ∈ p.listeners.all ++ (d.waiting ++ kept deliveries) := by
        have hcurrent :
            d.current ∈ p.listeners.all ++ d.current :: (d.waiting ++ kept deliveries) :=
          List.mem_append_right _ List.mem_cons_self
        rcases hused with hregistered | hkept
        · obtain ⟨e, he, hid⟩ := Listeners.isRegistered_iff.mp hregistered
          rw [← htied.same e (List.mem_append_left _ he) _ hcurrent hid]
          exact List.mem_append_left _ he
        · obtain ⟨e, he, hid⟩ := List.mem_map.mp hkept
          rw [← htied.same e (List.mem_append_right _ (List.mem_cons_of_mem _ he)) _ hcurrent hid]
          exact List.mem_append_right _ he
      simp only [Bool.or_eq_true, decide_eq_true_eq, hused, if_true]
      refine h.same (listeners_callNext _ _ _ _) (held_callNext _ _ _ _) ?_
      intro e
      have hbefore : kept (d :: deliveries) = d.current :: (d.waiting ++ kept deliveries) := rfl
      rw [kept_callNext, hd, hbefore]
      by_cases he : e = d.current
      · subst he
        simpa using hstill
      · simp [he]
    · simp only [Bool.or_eq_true, decide_eq_true_eq, hused, if_false]
      obtain ⟨hregistered, hkept⟩ := not_or.mp hused
      have hfree := htied.dropped (by simpa using hregistered) hkept
      apply h.releaseAll _ (kept_callNext _ _ _ _) (listeners_callNext _ _ _ _)
      rw [held_callNext]
      exact hfree

theorem step (h : p.Booked handed gone) {m : Move} (hm : m ≠ .close) :
    (p.step m).1.Booked (fun c => handed c ++ handedOutBy c p m) (gone ++ releasedBy p m) := by
  cases m with
  | register channel owned => exact h.register channel owned
  | release id => exact h.release id
  | give id owner => exact h.give id owner
  | publish notice => exact h.publish notice
  | close => exact absurd rfl hm
  | returns => exact h.returns

end Booked

theorem booked_run {ms : List Move} (hms : .close ∉ ms) :
    (new.run ms).1.Booked (fun c => handedOut c new ms) (releasedIn new ms) := by
  induction ms using List.reverseRecOn with
  | nil => exact .of_new
  | append_singleton ms m ih =>
    rw [List.mem_append, not_or] at hms
    have hm : m ≠ .close := fun heq => hms.2 (heq ▸ List.mem_singleton_self _)
    simp only [run_append, handedOut_append, releasedIn_append, run_cons, run_nil, handedOut,
      releasedIn, List.append_nil]
    exact (ih hms.1).step hm

/-! ## Once the publisher is closed -/

theorem releaseAll_of_shut {l : Listeners (List ListenerId)} (h : l.Shut)
    (pins ids : List ListenerId) : releaseAll pins ids l = l := by
  refine releaseAll_keeps (P := fun l' => l' = l) ?_ pins ids rfl
  intro l' id hl'
  rw [hl', h.remove_eq]

theorem dropIfUnused_of_shut {l : Listeners (List ListenerId)} (h : l.Shut)
    (pins : List ListenerId) (e : Entry) : dropIfUnused pins e l = l := by
  unfold dropIfUnused
  split
  · rfl
  · exact releaseAll_of_shut h pins e.2

/-- No move changes the listeners any more. -/
theorem listeners_step_of_shut (h : p.listeners.Shut) (m : Move) :
    (p.step m).1.listeners = p.listeners := by
  cases m with
  | register channel owned =>
    simp only [step, Listeners.register_of_isClosed h.closed]
    exact releaseAll_of_shut h _ _
  | release id =>
    simp only [step]
    split
    · exact releaseAll_of_shut h _ _
    · rfl
  | give id owner =>
    simp only [step]
    split
    · exact h.map_eq _
    · rfl
  | publish notice => exact listeners_callNext _ _ _ _
  | close => exact h.close_eq
  | returns =>
    simp only [step]
    split
    · rfl
    · rw [listeners_callNext]
      exact dropIfUnused_of_shut h _ _

theorem shut_run {ms : List Move} (h : .close ∈ ms) : (new.run ms).1.listeners.Shut := by
  obtain ⟨before, after, rfl⟩ := List.append_of_mem h
  have hstays {p : Publisher} (hp : p.listeners.Shut) : (p.run after).1.listeners.Shut := by
    clear h
    induction after generalizing p with
    | nil => exact hp
    | cons m ms ih =>
      rw [run_cons]
      exact ih (by rw [listeners_step_of_shut hp m]; exact hp)
  rw [run_append, run_cons]
  exact hstays (Listeners.shut_close _)

/-! ## The correspondence -/

/-- The second listener's subscription is owned by the first listener, which is registered. -/
def Owns (p : Publisher) (id other : ListenerId) : Prop :=
  ∃ owned, (id, owned) ∈ p.listeners.all ∧ other ∈ owned

/-- The listeners of an open publisher after a run, with no delivery in progress. -/
structure Corresponds (ms : List Move) (p : Publisher) : Prop where
  /-- The listeners of a channel are those of the subscriptions handed out for it and not released,
  in the order in which they were handed out. -/
  listed : ∀ c, p.listeners.ids c = (handedOut c new ms).filter (· ∉ releasedIn new ms)
  ascending : ∀ c, (p.listeners.ids c).Pairwise (· < ·)
  apart : ∀ c d id, id ∈ p.listeners.ids c → id ∈ p.listeners.ids d → c = d
  /-- Each of their subscriptions is held by the host or owned by a registered listener, once. -/
  placed : (p.listeners.all.map Prod.fst).Perm (p.held ++ p.listeners.all.flatMap Prod.snd)
  /-- A release removes the listener and all that can be reached from it along ownership, and
  nothing else. -/
  release : ∀ id ∈ p.held, ∀ c,
    ((p.step (.release id)).1.listeners.on c).Sublist (p.listeners.on c) ∧
    ∀ e, e ∈ (p.step (.release id)).1.listeners.on c ↔
      e ∈ p.listeners.on c ∧ ¬ Relation.ReflTransGen p.Owns id e.1

theorem Booked.corresponds {ms : List Move}
    (h : p.Booked (fun c => handedOut c new ms) (releasedIn new ms)) (hidle : p.deliveries = []) :
    p.Corresponds ms where
  listed := h.listed
  ascending := h.tied.numbered.ascending
  apart := h.tied.numbered.apart
  placed := by
    have htied := h.tied
    rw [hidle] at htied
    exact htied.perm
  release := by
    intro id hid c
    have howns : Passes (pinned []) p.listeners = p.Owns := by
      funext a b
      exact propext (and_iff_right List.not_mem_nil)
    have hon : (p.step (.release id)).1.listeners.on c =
        (p.listeners.on c).filter (·.1 ∉ released (pinned []) [id] p.listeners) := by
      simp only [Publisher.step, hid, if_true, hidle]
      exact on_releaseAll h.tied.numbered c
    rw [hon]
    refine ⟨List.filter_sublist, ?_⟩
    intro e
    rw [List.mem_filter, decide_eq_true_eq, mem_released_iff h.tied.numbered, howns]
    simp

/-- Whatever listeners do when they are called, and whatever subscriptions they own: while the
publisher is open and no delivery is in progress, registered listeners and subscriptions not
released correspond one to one; and once it is closed the lists stay empty, registering gives
nothing and releasing changes nothing. -/
theorem run_corresponds (ms : List Move) :
    (.close ∉ ms → (new.run ms).1.deliveries = [] → (new.run ms).1.Corresponds ms) ∧
    (.close ∈ ms →
      (∀ c, (new.run ms).1.listeners.on c = []) ∧
      (∀ channel owned,
        ((new.run ms).1.step (.register channel owned)).2 = [.registered none] ∧
        ((new.run ms).1.step (.register channel owned)).1.listeners =
          (new.run ms).1.listeners) ∧
      ∀ id, ((new.run ms).1.step (.release id)).1.listeners = (new.run ms).1.listeners ∧
        ((new.run ms).1.step (.release id)).1.deliveries = (new.run ms).1.deliveries ∧
        ((new.run ms).1.step (.release id)).2 = []) := by
  refine ⟨fun hopen hidle => (booked_run hopen).corresponds hidle, ?_⟩
  intro hclosed
  have hshut := shut_run hclosed
  refine ⟨hshut.empty, fun channel owned => ⟨?_, listeners_step_of_shut hshut _⟩, ?_⟩
  · simp only [step, Listeners.register_of_isClosed hshut.closed]
  · intro id
    by_cases hid : id ∈ (new.run ms).1.held
    · exact ⟨listeners_step_of_shut hshut _, by simp [step, hid], by simp [step, hid]⟩
    · exact ⟨listeners_step_of_shut hshut _, by simp [step, hid], by simp [step, hid]⟩

/-- The third listener called releases itself. It owns a listener that owns the first one, and both
go when its call is over; meanwhile it registers two more, one of which owns the other. -/
def deferredRelease : List Move :=
  [.register .updates [], .register .invalidations [1], .register .updates [],
    .register .updates [2], .publish (.update .empty), .returns, .returns, .release 4,
    .register .invalidations [], .register .updates [5], .returns]

theorem run_corresponds_deferredRelease :
    .close ∉ deferredRelease ∧ (new.run deferredRelease).1.deliveries = [] ∧
    (new.run deferredRelease).1.Corresponds deferredRelease ∧
    (new.run deferredRelease).1.listeners.ids .updates = [3, 6] ∧
    .close ∈ deferredRelease ++ [.close, .register .updates []] ∧
    (new.run (deferredRelease ++ [.close, .register .updates []])).1.listeners.on .updates =
      [] := by
  refine ⟨by decide, by decide, ?_, by decide, by decide, ?_⟩
  · exact (run_corresponds deferredRelease).1 (by decide) (by decide)
  · exact ((run_corresponds (deferredRelease ++ [.close, .register .updates []])).2 (by decide)).1
      .updates

-- Each of the two owns the other's subscription, so nobody can release them, and they stay until
-- the publisher is closed.
example : (new.run [.register .updates [], .register .updates [1], .give 2 1, .release 1,
    .release 2]).1.listeners.ids .updates = [1, 2] := by decide

end DiagnosticRelay.Publisher
