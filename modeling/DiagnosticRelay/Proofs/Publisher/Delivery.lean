import DiagnosticRelay.Proofs.Publisher.Correspondence

/-!
# Delivery to those who were registered

A publish call calls the listeners that were registered on the notice's channel when it began, each
once and in registration order, whatever they do when they are called: register and release
listeners, publish, close the publisher. The calls a publish call has made and those it has `due`
are together always the same (`callsOf_run`), since nothing but its own turn touches what is due. A
listener is called by later publish calls than those begun before it was registered, and only with
notices of its channel (`Enrolled`). `run_delivers` puts both together, and says by what has been
handed out and released who was registered.
-/

namespace DiagnosticRelay.Publisher

/-- The calls made by the publish call of a number, in order. -/
def callsOf (serial : Nat) (es : List Event) : List (ListenerId × Notice) :=
  es.filterMap fun
    | .called s id notice => if s = serial then some (id, notice) else none
    | .registered _ => none

/-- The calls that the publish call of a number has still to make. -/
def due (serial : Nat) (deliveries : List Delivery) : List (ListenerId × Notice) :=
  (deliveries.filter (·.serial = serial)).flatMap fun d => d.waiting.map fun e => (e.1, d.notice)

@[simp] theorem callsOf_nil (serial : Nat) : callsOf serial [] = [] := rfl

@[simp] theorem callsOf_append (serial : Nat) (es es' : List Event) :
    callsOf serial (es ++ es') = callsOf serial es ++ callsOf serial es' := by
  simp [callsOf]

theorem mem_callsOf {serial : Nat} {es : List Event} {id : ListenerId} {notice : Notice} :
    (id, notice) ∈ callsOf serial es ↔ .called serial id notice ∈ es := by
  rw [callsOf, List.mem_filterMap]
  constructor
  · rintro ⟨e, he, heq⟩
    cases e with
    | registered => cases heq
    | called s i n =>
      simp only [Option.ite_none_right_eq_some, Option.some.injEq, Prod.mk.injEq] at heq
      obtain ⟨rfl, rfl, rfl⟩ := heq
      exact he
  · intro he
    exact ⟨_, he, by simp⟩

theorem callsOf_eq_nil {serial : Nat} {es : List Event}
    (h : ∀ id notice, .called serial id notice ∉ es) : callsOf serial es = [] :=
  List.eq_nil_iff_forall_not_mem.mpr fun ⟨id, notice⟩ hmem => h id notice (mem_callsOf.mp hmem)

theorem due_eq_nil {serial : Nat} {deliveries : List Delivery}
    (h : ∀ d ∈ deliveries, d.serial ≠ serial) : due serial deliveries = [] := by
  have hnone : deliveries.filter (·.serial = serial) = [] := by
    apply List.filter_eq_nil_iff.mpr
    intro d hd
    simpa using h d hd
  rw [due, hnone]
  rfl

/-- What a delivery has still to do: the calls of one publish call, with one notice. -/
def Delivery.ahead (d : Delivery) : Nat × Notice × List ListenerId :=
  (d.serial, d.notice, d.waiting.map Prod.fst)

theorem ahead_map {f : Entry → Entry} (hf : ∀ e, (f e).1 = e.1) (d : Delivery) :
    (d.map f).ahead = d.ahead := by
  simp [Delivery.ahead, Delivery.map, Function.comp_def, hf]

/-- What is due depends on what the deliveries have still to do. -/
theorem due_eq (serial : Nat) (deliveries : List Delivery) : due serial deliveries =
    ((deliveries.map Delivery.ahead).filter (·.1 = serial)).flatMap fun a =>
      a.2.2.map fun id => (id, a.2.1) := by
  simp only [due, Delivery.ahead, List.filter_map, List.flatMap_map, List.map_map]
  rfl

/-! ## What a step does to deliveries -/

variable (p : Publisher)

/-- Calling the next listener turns what is due into a call. -/
theorem callsOf_callNext (serial s : Nat) (notice : Notice) (waiting : List Entry) :
    callsOf serial (callNext p s notice waiting).2 ++
        due serial (callNext p s notice waiting).1.deliveries =
      (if s = serial then waiting.map fun e => (e.1, notice) else []) ++
        due serial p.deliveries := by
  cases waiting with
  | nil => simp [callNext]
  | cons e waiting =>
    by_cases hs : s = serial
    · simp [callNext, callsOf, due, hs]
    · simp [callNext, callsOf, due, hs]

theorem called_of_callNext {s serial : Nat} {notice notice' : Notice} {waiting : List Entry}
    {id : ListenerId} (h : .called serial id notice' ∈ (callNext p s notice waiting).2) :
    serial = s ∧ notice' = notice ∧ id ∈ waiting.map Prod.fst := by
  cases waiting with
  | nil => cases h
  | cons e waiting =>
    obtain ⟨rfl, rfl, rfl⟩ := Event.called.inj (List.mem_singleton.mp h)
    exact ⟨rfl, rfl, List.mem_cons_self⟩

theorem mem_deliveries_callNext {s : Nat} {notice : Notice} {waiting : List Entry} {d : Delivery}
    (h : d ∈ (callNext p s notice waiting).1.deliveries) : d ∈ p.deliveries ∨
      (d.serial = s ∧ d.notice = notice ∧ d.waiting.map Prod.fst ⊆ waiting.map Prod.fst) := by
  cases waiting with
  | nil => exact .inl h
  | cons e waiting =>
    rcases List.mem_cons.mp h with rfl | h
    · exact .inr ⟨rfl, rfl, List.subset_cons_self _ _⟩
    · exact .inl h

theorem nextSerial_callNext (s : Nat) (notice : Notice) (waiting : List Entry) :
    (callNext p s notice waiting).1.nextSerial = p.nextSerial := by
  cases waiting <;> rfl

/-- A step leaves the deliveries what they have to do and calls nobody, or begins a publish call, or
has the innermost delivery call its next listener. -/
theorem step_cases (m : Move) :
    ((p.step m).1.deliveries.map Delivery.ahead = p.deliveries.map Delivery.ahead ∧
      (p.step m).1.nextSerial = p.nextSerial ∧
      ∀ serial id notice, .called serial id notice ∉ (p.step m).2) ∨
    (∃ notice, m = .publish notice ∧ p.step m = callNext { p with nextSerial := p.nextSerial + 1 }
      p.nextSerial notice (p.listeners.on notice.channel)) ∨
    ∃ d deliveries listeners, p.deliveries = d :: deliveries ∧
      p.step m = callNext { p with listeners, deliveries } d.serial d.notice d.waiting := by
  cases m with
  | register channel owned =>
    refine .inl ?_
    simp only [step]
    split <;> simp
  | release id =>
    refine .inl ?_
    simp only [step]
    split <;> simp
  | give id owner =>
    refine .inl ?_
    simp only [step]
    split
    · refine ⟨?_, rfl, fun _ _ _ => List.not_mem_nil⟩
      rw [List.map_map]
      exact List.map_congr_left fun d _ => ahead_map (endow_fst owner id) d
    · simp
  | publish notice => exact .inr (.inl ⟨notice, rfl, rfl⟩)
  | close => exact .inl ⟨rfl, rfl, fun _ _ _ => List.not_mem_nil⟩
  | returns =>
    cases hd : p.deliveries with
    | nil => simp [step, hd]
    | cons d deliveries =>
      refine .inr (.inr ⟨d, deliveries, dropIfUnused (d.waiting.map Prod.fst ++ pinned deliveries)
        d.current p.listeners, rfl, ?_⟩)
      simp only [step, hd]

variable {p}

/-- A delivery with the same to do as before is one of those there were. -/
theorem exists_ahead_eq {ds ds' : List Delivery}
    (h : ds'.map Delivery.ahead = ds.map Delivery.ahead) {d : Delivery} (hd : d ∈ ds') :
    ∃ d' ∈ ds, d'.serial = d.serial ∧ d'.notice = d.notice ∧
      d'.waiting.map Prod.fst = d.waiting.map Prod.fst := by
  have hmem : d.ahead ∈ ds.map Delivery.ahead := h ▸ List.mem_map_of_mem hd
  obtain ⟨d', hd', heq⟩ := List.mem_map.mp hmem
  obtain ⟨hserial, hrest⟩ := Prod.mk.inj heq
  obtain ⟨hnotice, hwaiting⟩ := Prod.mk.inj hrest
  exact ⟨d', hd', hserial, hnotice, hwaiting⟩

theorem nextSerial_step_le (m : Move) : p.nextSerial ≤ (p.step m).1.nextSerial := by
  rcases p.step_cases m with ⟨_, hnext, _⟩ | ⟨notice, _, hstep⟩ | ⟨d, deliveries, l, _, hstep⟩
  · exact Nat.le_of_eq hnext.symm
  · rw [hstep, nextSerial_callNext]
    exact Nat.le_succ _
  · refine Nat.le_of_eq ?_
    rw [hstep, nextSerial_callNext]

/-! ## Calls made and calls due -/

/-- A step makes calls of a publish call that has begun exactly as far as they were due. -/
theorem callsOf_step {serial : Nat} (h : serial < p.nextSerial) (m : Move) :
    callsOf serial (p.step m).2 ++ due serial (p.step m).1.deliveries =
      due serial p.deliveries := by
  rcases p.step_cases m with ⟨hsame, _, hnone⟩ | ⟨notice, _, hstep⟩ | ⟨d, deliveries, l, hd, hstep⟩
  · rw [due_eq, hsame, callsOf_eq_nil (hnone serial), List.nil_append, ← due_eq]
  · rw [hstep, callsOf_callNext, if_neg (Nat.ne_of_gt h), List.nil_append]
  · rw [hstep, callsOf_callNext, hd]
    by_cases hs : d.serial = serial
    · simp [due, hs]
    · simp [due, hs]

/-- So does a run. -/
theorem callsOf_run {serial : Nat} (h : serial < p.nextSerial) (ms : List Move) :
    callsOf serial (p.run ms).2 ++ due serial (p.run ms).1.deliveries =
      due serial p.deliveries := by
  induction ms generalizing p with
  | nil => rfl
  | cons m ms ih =>
    rw [run_cons, callsOf_append, List.append_assoc,
      ih (Nat.lt_of_lt_of_le h (nextSerial_step_le m)), callsOf_step h]

/-- Publish calls are numbered in the order they begin, and listeners in the order they register. -/
structure Orderly (p : Publisher) (es : List Event) : Prop where
  numbered : p.listeners.Numbered
  called : ∀ serial id notice, .called serial id notice ∈ es →
    serial < p.nextSerial ∧ id ≤ p.listeners.lastId
  waiting : ∀ d ∈ p.deliveries, d.serial < p.nextSerial ∧
    ∀ id ∈ d.waiting.map Prod.fst, id ≤ p.listeners.lastId

variable {es : List Event}

namespace Orderly

theorem step (h : p.Orderly es) (m : Move) : (p.step m).1.Orderly (es ++ (p.step m).2) := by
  obtain ⟨hsucceeds, hnumbered⟩ := p.listeners_step m
  have hold {serial : Nat} {id : ListenerId} (hlt : serial < p.nextSerial)
      (hle : id ≤ p.listeners.lastId) :
      serial < (p.step m).1.nextSerial ∧ id ≤ (p.step m).1.listeners.lastId :=
    ⟨Nat.lt_of_lt_of_le hlt (nextSerial_step_le m), Nat.le_trans hle hsucceeds.lastId⟩
  have hkept (d : Delivery) (hd : d ∈ p.deliveries) : d.serial < (p.step m).1.nextSerial ∧
      ∀ id ∈ d.waiting.map Prod.fst, id ≤ (p.step m).1.listeners.lastId :=
    ⟨Nat.lt_of_lt_of_le (h.waiting d hd).1 (nextSerial_step_le m),
      fun id hid => Nat.le_trans ((h.waiting d hd).2 id hid) hsucceeds.lastId⟩
  refine ⟨hnumbered h.numbered, ?_, ?_⟩
  · intro serial id notice hmem
    rcases List.mem_append.mp hmem with hmem | hmem
    · exact hold (h.called serial id notice hmem).1 (h.called serial id notice hmem).2
    · rcases p.step_cases m with ⟨_, _, hnone⟩ | ⟨n, _, hstep⟩ | ⟨d, deliveries, l, hd, hstep⟩
      · exact absurd hmem (hnone serial id notice)
      · have hmem' := hmem
        rw [hstep] at hmem'
        obtain ⟨rfl, rfl, hid⟩ := called_of_callNext _ hmem'
        refine ⟨?_, Nat.le_trans (h.numbered.le_lastId _ id hid) hsucceeds.lastId⟩
        rw [hstep, nextSerial_callNext]
        exact Nat.lt_succ_self _
      · rw [hstep] at hmem
        obtain ⟨rfl, rfl, hid⟩ := called_of_callNext _ hmem
        have hwaiting := h.waiting d (hd ▸ List.mem_cons_self)
        exact hold hwaiting.1 (hwaiting.2 id hid)
  · intro d hd
    rcases p.step_cases m with ⟨hsame, _⟩ | ⟨n, _, hstep⟩ | ⟨d', deliveries, l, hd', hstep⟩
    · obtain ⟨d', hd', hserial, _, hwaiting⟩ := exists_ahead_eq hsame hd
      rw [← hserial, ← hwaiting]
      exact hkept d' hd'
    · have hmem := hd
      rw [hstep] at hmem
      rcases mem_deliveries_callNext _ hmem with hmem | ⟨hserial, _, hsub⟩
      · exact hkept d hmem
      · refine ⟨?_, ?_⟩
        · rw [hstep, nextSerial_callNext, hserial]
          exact Nat.lt_succ_self _
        · intro id hid
          exact Nat.le_trans (h.numbered.le_lastId _ id (hsub hid)) hsucceeds.lastId
    · rw [hstep] at hd
      rcases mem_deliveries_callNext _ hd with hmem | ⟨hserial, _, hsub⟩
      · exact hkept d (hd' ▸ List.mem_cons_of_mem _ hmem)
      · have hwaiting := hkept d' (hd' ▸ List.mem_cons_self)
        exact ⟨hserial ▸ hwaiting.1, fun id hid => hwaiting.2 id (hsub hid)⟩

theorem run (h : p.Orderly es) (ms : List Move) : (p.run ms).1.Orderly (es ++ (p.run ms).2) := by
  induction ms generalizing p es with
  | nil =>
    rw [run_nil, List.append_nil]
    exact h
  | cons m ms ih =>
    rw [run_cons, ← List.append_assoc]
    exact ih (h.step m)

theorem due_eq_nil (h : p.Orderly es) : due p.nextSerial p.deliveries = [] :=
  Publisher.due_eq_nil fun d hd => Nat.ne_of_lt (h.waiting d hd).1

theorem callsOf_eq_nil (h : p.Orderly es) : callsOf p.nextSerial es = [] :=
  Publisher.callsOf_eq_nil fun id notice hmem =>
    Nat.lt_irrefl _ (h.called p.nextSerial id notice hmem).1

end Orderly

theorem orderly_new : new.Orderly [] where
  numbered := .of_empty
  called := fun _ _ _ hmem => absurd hmem List.not_mem_nil
  waiting := fun _ hd => absurd hd List.not_mem_nil

theorem orderly_run (ms : List Move) : (new.run ms).1.Orderly (new.run ms).2 :=
  orderly_new.run ms

/-! ## Who is called by whom -/

/-- A listener of a channel that was registered when the publish call of a number was the next one.
-/
structure Enrolled (p : Publisher) (id : ListenerId) (channel : Channel) (first : Nat) : Prop where
  given : id ≤ p.listeners.lastId
  only : ∀ c, id ∈ p.listeners.ids c → c = channel
  next : first ≤ p.nextSerial
  waiting : ∀ d ∈ p.deliveries, id ∈ d.waiting.map Prod.fst →
    d.notice.channel = channel ∧ first ≤ d.serial

namespace Enrolled

variable {id : ListenerId} {channel : Channel} {first : Nat}

/-- It stays so, and it is called by the publish call of that number or a later one, with a notice
of its channel. -/
theorem step (h : p.Enrolled id channel first) (m : Move) :
    (p.step m).1.Enrolled id channel first ∧ ∀ serial notice,
      .called serial id notice ∈ (p.step m).2 → notice.channel = channel ∧ first ≤ serial := by
  obtain ⟨hsucceeds, _⟩ := p.listeners_step m
  have hgiven := Nat.le_trans h.given hsucceeds.lastId
  have honly (c : Channel) (hc : id ∈ (p.step m).1.listeners.ids c) : c = channel := by
    rcases hsucceeds.ids c id hc with hc | hlt
    · exact h.only c hc
    · exact absurd h.given (Nat.not_le_of_lt hlt)
  have hnext := Nat.le_trans h.next (nextSerial_step_le (p := p) m)
  suffices hrest : (∀ d ∈ (p.step m).1.deliveries, id ∈ d.waiting.map Prod.fst →
      d.notice.channel = channel ∧ first ≤ d.serial) ∧ ∀ serial notice,
      .called serial id notice ∈ (p.step m).2 → notice.channel = channel ∧ first ≤ serial from
    ⟨⟨hgiven, honly, hnext, hrest.1⟩, hrest.2⟩
  rcases p.step_cases m with ⟨hsame, _, hnone⟩ | ⟨n, _, hstep⟩ | ⟨d', deliveries, l, hd', hstep⟩
  · refine ⟨?_, fun serial notice hmem => absurd hmem (hnone serial id notice)⟩
    intro d hd hid
    obtain ⟨d', hd', hserial, hnotice, hwaiting⟩ := exists_ahead_eq hsame hd
    rw [← hserial, ← hnotice]
    exact h.waiting d' hd' (hwaiting ▸ hid)
  · rw [hstep]
    refine ⟨?_, ?_⟩
    · intro d hd hid
      rcases mem_deliveries_callNext _ hd with hd | ⟨hserial, hnotice, hsub⟩
      · exact h.waiting d hd hid
      · rw [hserial, hnotice]
        exact ⟨h.only _ (hsub hid), h.next⟩
    · intro serial notice hmem
      obtain ⟨rfl, rfl, hid⟩ := called_of_callNext _ hmem
      exact ⟨h.only _ hid, h.next⟩
  · rw [hstep]
    have hwaiting := h.waiting d' (hd' ▸ List.mem_cons_self)
    refine ⟨?_, ?_⟩
    · intro d hd hid
      rcases mem_deliveries_callNext _ hd with hd | ⟨hserial, hnotice, hsub⟩
      · exact h.waiting d (hd' ▸ List.mem_cons_of_mem _ hd) hid
      · rw [hserial, hnotice]
        exact hwaiting (hsub hid)
    · intro serial notice hmem
      obtain ⟨rfl, rfl, hid⟩ := called_of_callNext _ hmem
      exact hwaiting hid

theorem run (h : p.Enrolled id channel first) (ms : List Move) :
    ∀ serial notice, .called serial id notice ∈ (p.run ms).2 →
      notice.channel = channel ∧ first ≤ serial := by
  induction ms generalizing p with
  | nil => exact fun _ _ hmem => absurd hmem List.not_mem_nil
  | cons m ms ih =>
    intro serial notice hmem
    rw [run_cons] at hmem
    rcases List.mem_append.mp hmem with hmem | hmem
    · exact (h.step m).2 serial notice hmem
    · exact ih (h.step m).1 serial notice hmem

end Enrolled

/-- Who registers gets the next identity, and nothing is called. -/
theorem register_of_registered {channel : Channel} {owned : List ListenerId} {id : ListenerId}
    (h : (p.step (.register channel owned)).2 = [.registered (some id)]) :
    p.listeners.isClosed = false ∧ id = p.listeners.lastId + 1 ∧
      (p.step (.register channel owned)).1.listeners =
        (p.listeners.register channel (owned.eraseDups.filter (· ∈ p.held))).2 ∧
      (p.step (.register channel owned)).1.deliveries = p.deliveries ∧
      (p.step (.register channel owned)).1.nextSerial = p.nextSerial := by
  have hregister := fun hclosed => p.listeners.register_of_not_isClosed hclosed channel
    (owned.eraseDups.filter (· ∈ p.held))
  simp only [step] at h ⊢
  cases hclosed : p.listeners.isClosed with
  | true =>
    rw [Listeners.register_of_isClosed hclosed] at h
    cases h
  | false =>
    have hid := (hregister hclosed).1
    generalize p.listeners.register channel (owned.eraseDups.filter (· ∈ p.held)) = registered
      at h hid ⊢
    obtain ⟨_, l⟩ := registered
    obtain rfl : _ = some _ := hid
    obtain rfl := Option.some.inj (Event.registered.inj (List.cons.inj h).1)
    exact ⟨rfl, rfl, rfl, rfl, rfl⟩

/-- Who registers is enrolled, and was not called before. -/
theorem Orderly.enrolled (h : p.Orderly es) {channel : Channel} {owned : List ListenerId}
    {id : ListenerId} (hid : (p.step (.register channel owned)).2 = [.registered (some id)]) :
    (p.step (.register channel owned)).1.Enrolled id channel p.nextSerial ∧
      ∀ serial notice, .called serial id notice ∉ es := by
  obtain ⟨hclosed, rfl, hlisteners, hdeliveries, hnext⟩ := register_of_registered hid
  have hnew {x : ListenerId} (hle : x ≤ p.listeners.lastId) : p.listeners.lastId + 1 ≠ x :=
    Nat.ne_of_gt (Nat.lt_succ_of_le hle)
  refine ⟨⟨?_, ?_, Nat.le_of_eq hnext.symm, ?_⟩, ?_⟩
  · refine Nat.le_of_eq ?_
    rw [hlisteners, (Listeners.register_of_not_isClosed hclosed _ _).2]
  · intro c hc
    rw [hlisteners, Listeners.ids_register hclosed] at hc
    split at hc
    · next heq => exact heq
    · exact absurd rfl (hnew (h.numbered.le_lastId c _ hc))
  · intro d hd hwaiting
    rw [hdeliveries] at hd
    exact absurd rfl (hnew ((h.waiting d hd).2 _ hwaiting))
  · exact fun serial notice hmem => hnew (h.called serial _ notice hmem).2 rfl

/-- The listeners of a channel at any time are those of the subscriptions handed out for it and not
released, in order, and none once the publisher is closed. -/
theorem ids_run (ms : List Move) (c : Channel) : (new.run ms).1.listeners.ids c =
    if .close ∈ ms then [] else (handedOut c new ms).filter (· ∉ releasedIn new ms) := by
  split
  · next hclosed => rw [Listeners.ids, (shut_run hclosed).empty c, List.map_nil]
  · next hopen => exact (booked_run hopen).listed c

/-- Whatever is done before, meanwhile and after: a publish call makes exactly one call to each
listener that was registered on the notice's channel when it began, in registration order and with
that notice, so far as it has got and altogether once it is over; and a listener is called only with
notices of its channel, by publish calls that began after it was registered. Registered are those
that were handed a subscription which has not been released, until the publisher is closed. -/
theorem run_delivers (before after : List Move) :
    (∀ notice,
      ((new.run before).1.listeners.ids notice.channel =
        if .close ∈ before then []
        else (handedOut notice.channel new before).filter (· ∉ releasedIn new before)) ∧
      ((new.run before).1.listeners.ids notice.channel).Pairwise (· < ·) ∧
      callsOf (new.run before).1.nextSerial (new.run (before ++ .publish notice :: after)).2 <+:
        ((new.run before).1.listeners.ids notice.channel).map (·, notice) ∧
      ((∀ d ∈ (new.run (before ++ .publish notice :: after)).1.deliveries,
          d.serial ≠ (new.run before).1.nextSerial) →
        callsOf (new.run before).1.nextSerial (new.run (before ++ .publish notice :: after)).2 =
          ((new.run before).1.listeners.ids notice.channel).map (·, notice))) ∧
    ∀ channel owned id,
      ((new.run before).1.step (.register channel owned)).2 = [.registered (some id)] →
      ∀ serial notice,
        .called serial id notice ∈ (new.run (before ++ .register channel owned :: after)).2 →
        notice.channel = channel ∧ (new.run before).1.nextSerial ≤ serial := by
  have h := orderly_run before
  refine ⟨?_, ?_⟩
  · intro notice
    have hpublish : (new.run before).1.step (.publish notice) = callNext
        { (new.run before).1 with nextSerial := (new.run before).1.nextSerial + 1 }
        (new.run before).1.nextSerial notice ((new.run before).1.listeners.on notice.channel) := rfl
    have hbegun : (new.run before).1.nextSerial <
        ((new.run before).1.step (.publish notice)).1.nextSerial := by
      rw [hpublish, nextSerial_callNext]
      exact Nat.lt_succ_self _
    have hall : callsOf (new.run before).1.nextSerial
          (new.run (before ++ .publish notice :: after)).2 ++
        due (new.run before).1.nextSerial
          (new.run (before ++ .publish notice :: after)).1.deliveries =
        ((new.run before).1.listeners.ids notice.channel).map (·, notice) := by
      rw [run_append, run_cons, callsOf_append, h.callsOf_eq_nil, List.nil_append, callsOf_append,
        List.append_assoc, callsOf_run hbegun, hpublish, callsOf_callNext, if_pos rfl,
        h.due_eq_nil, List.append_nil, Listeners.ids, List.map_map]
      rfl
    refine ⟨ids_run before _, h.numbered.ascending _, ⟨_, hall⟩, ?_⟩
    intro hover
    rw [due_eq_nil hover, List.append_nil] at hall
    exact hall
  · intro channel owned id hid serial notice hmem
    obtain ⟨henrolled, hbefore⟩ := h.enrolled hid
    rw [run_append, run_cons, hid] at hmem
    rcases List.mem_append.mp hmem with hmem | hmem
    · exact absurd hmem (hbefore serial notice)
    · rcases List.mem_append.mp hmem with hmem | hmem
      · cases List.mem_singleton.mp hmem
      · exact henrolled.run after serial notice hmem

/-- Two listeners for updates and one for invalidations. -/
def threeListeners : List Move :=
  [.register .updates [], .register .updates [], .register .invalidations []]

/-- The first listener releases itself and the second one, registers another, and publishes an
invalidation; the second one, still called, closes the publisher. -/
def upheaval : List Move :=
  [.release 1, .release 2, .register .updates [], .publish (.invalidation ⟨[]⟩), .returns, .returns,
    .close, .returns]

/-- The second listener releases the first one and registers another while it is called. -/
def succession : List Move :=
  threeListeners ++ [.publish (.update .empty), .returns, .release 1, .register .updates [],
    .returns]

theorem run_delivers_upheaval :
    (∀ d ∈ (new.run (threeListeners ++ .publish (.update .empty) :: upheaval)).1.deliveries,
      d.serial ≠ (new.run threeListeners).1.nextSerial) ∧
    callsOf 0 (new.run (threeListeners ++ .publish (.update .empty) :: upheaval)).2 =
      [(1, .update .empty), (2, .update .empty)] ∧
    ((new.run (threeListeners ++ [.publish (.update .empty), .release 1, .release 2])).1.step
      (.register .updates [])).2 = [.registered (some 4)] ∧
    (∀ serial notice, .called serial 4 notice ∈ (new.run ((threeListeners ++
        [.publish (.update .empty), .release 1, .release 2]) ++
          .register .updates [] :: upheaval.drop 3)).2 →
      notice.channel = .updates ∧ 1 ≤ serial) ∧
    (∀ d ∈ (new.run (succession ++ .publish (.update .empty) :: [.returns, .returns])).1.deliveries,
      d.serial ≠ (new.run succession).1.nextSerial) ∧
    callsOf 1 (new.run (succession ++ .publish (.update .empty) :: [.returns, .returns])).2 =
      [(2, .update .empty), (4, .update .empty)] := by
  have hover : ∀ d ∈
      (new.run (threeListeners ++ .publish (.update .empty) :: upheaval)).1.deliveries,
      d.serial ≠ (new.run threeListeners).1.nextSerial := by decide
  have hlater : ∀ d ∈
      (new.run (succession ++ .publish (.update .empty) :: [.returns, .returns])).1.deliveries,
      d.serial ≠ (new.run succession).1.nextSerial := by decide
  exact ⟨hover, ((run_delivers threeListeners upheaval).1 (.update .empty)).2.2.2 hover, by decide,
    (run_delivers _ _).2 .updates [] 4 (by decide), hlater,
    ((run_delivers succession [.returns, .returns]).1 (.update .empty)).2.2.2 hlater⟩

end DiagnosticRelay.Publisher
