import DiagnosticRelay.Proofs.Provider.Account
import DiagnosticRelay.Proofs.Provider.Failure

/-!
# Starting cycles

A document is compiled on three routes: when the host says so, on an event of the document, and
when a listener for updates is registered while the document is active. Each route has conditions of
its own, and all share those of `trigger`. The document of a cycle has to be watched, so the first
cycle of a document puts a watch on it before it starts; on a destroyed document the watch is called
at once, and everything done for it is undone.

A trigger starts one cycle or none (`Coherent.answers`), and no other move starts any
(`Coherent.step_of_not_triggered`). A trigger that starts none leaves flags, records and cycles as
they were, and also the watches that are kept, with one exception. While the destruction of a
document is being handled its watch is still kept; if a listener has the document compiled at that
moment, the watch is let go a little earlier.
-/

namespace DiagnosticRelay

/-- The cycles handed to the host, with the identities of their documents and their labels. -/
def startsIn (es : List Event) : List (Nat × DocumentId × String) :=
  es.filterMap fun
    | .started n id label => some (n, id, label)
    | _ => none

@[simp] theorem startsIn_nil : startsIn [] = [] := rfl

@[simp] theorem startsIn_append (es es' : List Event) :
    startsIn (es ++ es') = startsIn es ++ startsIn es' := by
  simp [startsIn]

/-- Whether a document that has just been watched is compiled next. -/
def Frame.isAttaching : Frame → Bool
  | .attaching .. => true
  | _ => false

namespace Configuration

/-- The configuration with another watch kept in the name of an identity. -/
def setWatch (c : Configuration) (id : DocumentId) (ref : Option WatchRef) : Configuration :=
  { c with provider := c.provider.setWatch id ref }

/-- The position of the document that a move has compiled, unless something is against it. -/
def target (c : Configuration) : Move → Option DocumentIndex
  | .run i | .event i _ => some i
  | .listen .updates => c.active
  | _ => none

/-- The document that a move triggers, with its position. Without the handle none can be. -/
def triggered (c : Configuration) (m : Move) : Option (DocumentIndex × Document) :=
  if c.isHandleHeld then (c.target m).bind fun i => c.documents[i]?.map (Prod.mk i) else none

/-- Whether the route by which a document is triggered lets it through. -/
def isAdmitted (c : Configuration) (d : Document) : Move → Bool
  | .event _ e =>
    c.provider.settings.handles d.grammar && (e ≠ .saved || c.provider.settings.runOnSave)
  | .listen _ => c.provider.settings.handles d.grammar
  | _ => true

/-- Whether nothing is against compiling the document. -/
def qualifies (c : Configuration) (d : Document) (m : Move) : Bool :=
  ! c.provider.isDisposed && d.path.isSome && ! d.isDestroyed && c.isAdmitted d m

/-- One cycle is started, for the document as it is now. -/
structure Starts (c : Configuration) (i : DocumentIndex) (d : Document) (c' : Configuration)
    (shown : List Event) : Prop where
  shown : startsIn shown = [(c.nextCycle, d.id, s!"Clang: compiling `{d.title}`")]
  pending : c'.pending = c.pending ++ [⟨c.nextCycle, i, d.id, false⟩]

/-- No cycle is started and nothing is changed, but that the watch of a document whose destruction
is being handled may be let go. -/
structure Spares (c : Configuration) (id : DocumentId) (c' : Configuration)
    (shown : List Event) : Prop where
  shown : startsIn shown = []
  tracker : c'.provider.tracker = c.provider.tracker
  watches : ∀ e, c'.provider.watches e = c.provider.watches e ∨
    e = id ∧ .forgetting e ∈ c.stack ∧ c'.provider.watches e = none
  documents : c'.documents = c.documents
  pending : c'.pending = c.pending
  isHandleHeld : c'.isHandleHeld = c.isHandleHeld

variable {c c' : Configuration} {i : DocumentIndex} {d : Document} {id : DocumentId}
  {shown : List Event} {m : Move}

theorem triggered_eq_some_iff : c.triggered m = some (i, d) ↔
    c.isHandleHeld = true ∧ c.target m = some i ∧ c.documents[i]? = some d := by
  unfold triggered
  split
  · next hhandle => simp [hhandle, Option.bind_eq_some_iff]
  · next hhandle => simp [hhandle]

/-! ## What a trigger begins -/

theorem trigger_of_isWatched (hd : c.documents[i]? = some d)
    (hopen : c.provider.isDisposed = false) (hpath : d.path.isNone = false)
    (hw : c.provider.tracker.isWatched d.id = true) : c.trigger i = c.startCycle i d := by
  simp [trigger, hd, hopen, hpath, Tracker.watch, hw]

/-- The first time a live document is compiled a watch is put on it. -/
theorem trigger_of_not_isWatched (hd : c.documents[i]? = some d)
    (hopen : c.provider.isDisposed = false) (hpath : d.path.isNone = false)
    (hlive : d.isDestroyed = false) (hw : c.provider.tracker.isWatched d.id = false) :
    c.trigger i = ((c.flag i d).updateDocument i (·.watch ⟨c.nextKey, d.id⟩), []) := by
  unfold trigger
  simp only [hd, hopen, hpath, hlive, Tracker.watch, hw]
  rfl

/-- A destroyed document is flagged, and forgotten at once. -/
theorem trigger_of_isDestroyed (hd : c.documents[i]? = some d)
    (hopen : c.provider.isDisposed = false) (hpath : d.path.isNone = false)
    (hdestroyed : d.isDestroyed = true) (hw : c.provider.tracker.isWatched d.id = false) :
    c.trigger i = (c.flag i d).forgetDocument d.id := by
  unfold trigger
  simp only [hd, hopen, hpath, hdestroyed, Tracker.watch, hw]
  rfl

theorem attach_of_document (hw : c.provider.tracker.isWatched id = true) {key : Nat}
    (hd : (c.releaseWatch id).documents[i]? = some d) :
    c.attach i id key = ((c.releaseWatch id).setWatch id (some ⟨i, key⟩)).startCycle i d := by
  simp only [attach, hw, if_true, hd]
  rfl

theorem releaseWatch_of_none (h : c.provider.watches id = none) : c.releaseWatch id = c := by
  rw [releaseWatch, h]

theorem advance_attaching {key : Nat} {stack : List Frame}
    (hs : c.stack = .attaching i id key :: stack) :
    c.advance = some ((c.setStack stack).attach i id key) := by
  rw [advance, hs]
  rfl

theorem advance_forgetting {stack : List Frame} (hs : c.stack = .forgetting id :: stack) :
    c.advance = some ((c.setStack stack).releaseWatch id, [.logged (.stoppedTracking id)]) := by
  rw [advance, hs]
  rfl

/-- A piece of work that leaves nothing to be done. -/
theorem settle_eq {after : Configuration × List Event} (h : c.advance = some after)
    (hrest : after.1.advance = none) : c.settle = after := by
  obtain ⟨c', shown⟩ := after
  rw [settle_of_advance h, settle_of_rest hrest, List.append_nil]

/-! ## What a trigger comes to -/

/-- A document is triggered, and the work that follows is done. -/
def compile (c : Configuration) (i : DocumentIndex) : Configuration × List Event :=
  ((c.trigger i).1.settle.1, (c.trigger i).2 ++ (c.trigger i).1.settle.2)

theorem compile_of_rest (h : (c.trigger i).1.advance = none) : c.compile i = c.trigger i := by
  rw [compile, settle_of_rest h, List.append_nil]

theorem Starts.startCycle (c : Configuration) (i : DocumentIndex) (d : Document) :
    c.Starts i d (c.startCycle i d).1 (c.startCycle i d).2 := ⟨rfl, rfl⟩

/-- A live document is watched, if it was not, and then the cycle starts. -/
theorem Coherent.compile_starts (h : c.Coherent) (hc : c.advance = none)
    (hhandle : c.isHandleHeld = true) (hd : c.documents[i]? = some d)
    (hopen : c.provider.isDisposed = false) (hpath : d.path.isNone = false)
    (hlive : d.isDestroyed = false) : c.Starts i d (c.compile i).1 (c.compile i).2 := by
  cases hw : c.provider.tracker.isWatched d.id with
  | true =>
    have htrigger := trigger_of_isWatched hd hopen hpath hw
    have hrest : (c.trigger i).1.advance = none := by
      rw [htrigger]
      exact advance_eq_none_of_stack (stack_startCycle c i d).symm hc
    rw [compile_of_rest hrest, htrigger]
    exact .startCycle c i d
  | false =>
    have htrigger := trigger_of_not_isWatched hd hopen hpath hlive hw
    rw [compile, htrigger]
    generalize hb : (c.flag i d).updateDocument i (·.watch ⟨c.nextKey, d.id⟩) = b
    have hs : b.stack = .attaching i d.id c.nextKey :: c.stack := by
      rw [← hb]
      rfl
    have hentry : (b.setStack c.stack).provider.watches d.id = none := by
      rw [← hb]
      exact h.entry_eq_none (h.attached (by simp [isAlive, hhandle])) hd hlive hw
    have hflagged : (b.setStack c.stack).provider.tracker.isWatched d.id = true := by
      rw [← hb]
      simp [flag, setTracker, updateDocument, setStack]
    have hd' : ((b.setStack c.stack).releaseWatch d.id).documents[i]? =
        some (d.watch ⟨c.nextKey, d.id⟩) := by
      rw [releaseWatch_of_none hentry, ← hb]
      exact (getElem?_updateDocument _ _ _ _).trans (by simp [flag, setTracker, hd])
    have hadvance := advance_attaching hs
    rw [attach_of_document hflagged hd', releaseWatch_of_none hentry] at hadvance
    rw [settle_eq hadvance (advance_eq_none_of_stack (c := c) rfl hc), ← hb]
    exact ⟨rfl, rfl⟩

/-- To flag a document and to forget it leaves what is known about it as it was. -/
theorem forget_setWatched {t : Tracker} (hw : t.isWatched id = false)
    (hr : t.recorded id = none) : (t.setWatched id true).forget id = (none, t) := by
  have hinvalidate : (t.setWatched id true).invalidate id = (none, t.setWatched id true) := by
    rw [Tracker.invalidate, Tracker.recorded_setWatched, hr]
  have hflags : ((t.setWatched id true).setWatched id false).isWatched = t.isWatched := by
    funext e
    by_cases he : e = id
    · simp [he, hw]
    · simp [he]
  have hsame : (t.setWatched id true).setWatched id false = t :=
    congrArg (Tracker.mk t.recorded) hflags
  rw [Tracker.forget, hinvalidate]
  exact congrArg (Prod.mk none) hsame

theorem Spares.still (id : DocumentId) (hshown : startsIn shown = []) : c.Spares id c shown :=
  ⟨hshown, rfl, fun _ => .inl rfl, rfl, rfl, rfl⟩

/-- If the watch of a document without a flag is still kept, it is about to be let go, and the
document has called it. -/
theorem Coherent.entry_of_not_isWatched (h : c.Coherent) (ha : c.Attached)
    (hd : c.documents[i]? = some d) (hw : c.provider.tracker.isWatched d.id = false)
    {ref : WatchRef} (href : c.provider.watches d.id = some ref) :
    .forgetting d.id ∈ c.stack ∧ ∃ e, c.documents[ref.document]? = some e ∧ e.watches = [] := by
  obtain ⟨hflag, e, he, hid⟩ := (ha d.id).entry ref href
  rcases hflag with hflag | hmem
  · cases hw.symm.trans hflag
  · obtain ⟨_, rfl⟩ := h.eq_of_id hd he hid.symm
    exact ⟨hmem, d, he, h.watches_eq_nil hd hw⟩

/-- On a destroyed document the watch is called at once. Nothing is recorded for the document, so
nobody is told of anything before the watch is let go. -/
theorem Coherent.compile_spares_destroyed (h : c.Coherent) (hc : c.advance = none)
    (hhandle : c.isHandleHeld = true) (hd : c.documents[i]? = some d)
    (hopen : c.provider.isDisposed = false) (hpath : d.path.isNone = false)
    (hdestroyed : d.isDestroyed = true) : c.Spares d.id (c.compile i).1 (c.compile i).2 := by
  have ha := h.attached (by simp [isAlive, hhandle])
  have hw := h.isWatched_of_isDestroyed ha hc hd hdestroyed
  have hentry (ref : WatchRef) (href : c.provider.watches d.id = some ref) :=
    h.entry_of_not_isWatched ha hd hw href
  obtain ⟨b, hb⟩ : ∃ b, b = ({ c with nextKey := c.nextKey + 1 } : Configuration) := ⟨_, rfl⟩
  -- the tracker is as before, and what is left to be done is to let go and to find no flag
  have hforget : (c.flag i d).forgetDocument d.id =
      (b.setStack (.forgetting d.id :: .attaching i d.id c.nextKey :: c.stack), []) := by
    rw [forgetDocument_eq, hb]
    simp only [flag, setTracker, forget_setWatched hw (h.recorded_eq_none hw)]
    rfl
  have hletGo (stack : List Frame) : (b.setStack stack).releaseWatch d.id =
      (b.setStack stack).setWatch d.id none := by
    apply releaseWatch_eq
    rw [hb]
    exact fun ref href => (hentry ref href).2
  have hdetach : ((b.setStack c.stack).setWatch d.id none).attach i d.id c.nextKey =
      ((b.setStack c.stack).setWatch d.id none, [.logged (.skippedDestroyed d.id)]) := by
    rw [Configuration.attach, if_neg]
    rw [hb]
    simp [setWatch, setStack, Provider.setWatch, hw]
  have hlast : ((b.setStack (.attaching i d.id c.nextKey :: c.stack)).setWatch d.id none).settle =
      ((b.setStack c.stack).setWatch d.id none, [.logged (.skippedDestroyed d.id)]) :=
    settle_eq ((advance_attaching rfl).trans (congrArg some hdetach))
      (advance_eq_none_of_stack (c := c) rfl hc)
  have hsettle := settle_of_advance (advance_forgetting
    (c := b.setStack (.forgetting d.id :: .attaching i d.id c.nextKey :: c.stack)) rfl)
  rw [compile, trigger_of_isDestroyed hd hopen hpath hdestroyed hw, hforget, hsettle]
  have hstack : (b.setStack (.forgetting d.id :: .attaching i d.id c.nextKey :: c.stack)).setStack
      (.attaching i d.id c.nextKey :: c.stack) =
        b.setStack (.attaching i d.id c.nextKey :: c.stack) := rfl
  rw [hstack, hletGo, hlast, hb]
  refine ⟨rfl, rfl, ?_, rfl, rfl, rfl⟩
  intro e
  by_cases he : e = d.id
  · subst he
    cases hkept : c.provider.watches d.id with
    | none => exact .inl (if_pos rfl)
    | some ref => exact .inr ⟨rfl, (hentry ref hkept).1, if_pos rfl⟩
  · exact .inl (if_neg he)

/-- A document that is triggered is compiled, unless the provider is disposed of or the document is
unsaved or destroyed. -/
theorem Coherent.compile_cases (h : c.Coherent) (hc : c.advance = none)
    (hhandle : c.isHandleHeld = true) (hd : c.documents[i]? = some d) :
    ((! c.provider.isDisposed && d.path.isSome && ! d.isDestroyed) = true →
      c.Starts i d (c.compile i).1 (c.compile i).2) ∧
    ((! c.provider.isDisposed && d.path.isSome && ! d.isDestroyed) = false →
      c.Spares d.id (c.compile i).1 (c.compile i).2) := by
  cases hopen : c.provider.isDisposed with
  | true =>
    have htrigger : c.trigger i = (c, []) := by simp [trigger, hd, hopen]
    rw [compile_of_rest (by rw [htrigger]; exact hc), htrigger]
    exact ⟨by simp, fun _ => .still d.id rfl⟩
  | false =>
    cases hpath : d.path with
    | none =>
      have htrigger : c.trigger i = (c, [.logged (.skippedUnsaved d.id)]) := by
        simp [trigger, hd, hopen, hpath]
      rw [compile_of_rest (by rw [htrigger]; exact hc), htrigger]
      exact ⟨by simp, fun _ => .still d.id rfl⟩
    | some p =>
      have hsaved : d.path.isNone = false := by rw [hpath]; rfl
      cases hdestroyed : d.isDestroyed with
      | true =>
        refine ⟨by simp, ?_⟩
        exact fun _ => h.compile_spares_destroyed hc hhandle hd hopen hsaved hdestroyed
      | false =>
        refine ⟨fun _ => h.compile_starts hc hhandle hd hopen hsaved hdestroyed, ?_⟩
        simp

/-! ## Moves -/

@[simp] theorem pending_reap (c : Configuration) : c.reap.pending = c.pending := by
  unfold reap
  split <;> rfl

theorem Starts.reap {before : List Event} (h : c.Starts i d c' shown)
    (hbefore : startsIn before = []) : c.Starts i d c'.reap (before ++ shown) where
  shown := by rw [startsIn_append, hbefore, List.nil_append, h.shown]
  pending := by rw [pending_reap, h.pending]

theorem Spares.reap {before : List Event} (h : c.Spares id c' shown)
    (hhandle : c.isHandleHeld = true) (hbefore : startsIn before = []) :
    c.Spares id c'.reap (before ++ shown) := by
  rw [reap_of_isAlive (by simp [isAlive, h.isHandleHeld, hhandle])]
  refine ⟨?_, h.tracker, h.watches, h.documents, h.pending, h.isHandleHeld⟩
  rw [startsIn_append, hbefore, List.nil_append, h.shown]

/-- What comes of a move that triggers a document. -/
structure Answers (c : Configuration) (m : Move) (i : DocumentIndex) (d : Document) : Prop where
  starts : c.qualifies d m = true → c.Starts i d (c.step m).1 (c.step m).2
  spares : c.qualifies d m = false → c.Spares d.id (c.step m).1 (c.step m).2

theorem step_of_compile {b : Configuration} {before : List Event}
    (hbegin : c.begin m = ((b.trigger i).1, before ++ (b.trigger i).2)) :
    c.step m = ((b.compile i).1.reap, before ++ (b.compile i).2) := by
  rw [step_eq_settle, hbegin, List.append_assoc]
  rfl

/-- A document that the route lets through is compiled; a listener may have been registered
before. -/
theorem Coherent.answers_of_admitted {l : Listeners Unit} {before : List Event}
    (h : (c.setListeners l).Coherent) (hc : c.Ready) (hhandle : c.isHandleHeld = true)
    (hd : c.documents[i]? = some d) (hadmitted : c.isAdmitted d m = true)
    (hbegin : c.begin m =
      (((c.setListeners l).trigger i).1, before ++ ((c.setListeners l).trigger i).2))
    (hbefore : startsIn before = []) : c.Answers m i d := by
  have hrest : (c.setListeners l).advance = none := advance_eq_none_of_stack (c := c) rfl hc.rest
  obtain ⟨hstarts, hspares⟩ := h.compile_cases hrest hhandle hd
  constructor
  · intro hq
    rw [qualifies, hadmitted, Bool.and_true] at hq
    obtain ⟨hshown, hpending⟩ := (hstarts hq).reap hbefore
    rw [step_of_compile hbegin]
    exact ⟨hshown, hpending⟩
  · intro hq
    rw [qualifies, hadmitted, Bool.and_true] at hq
    obtain ⟨hshown, htracker, hwatches, hdocuments, hpending, hheld⟩ :=
      (hspares hq).reap hhandle hbefore
    rw [step_of_compile hbegin]
    exact ⟨hshown, htracker, hwatches, hdocuments, hpending, hheld⟩

/-- A document that the route turns away is left alone. -/
theorem Answers.of_refused {l : Listeners Unit} {before : List Event} (hc : c.Ready)
    (hhandle : c.isHandleHeld = true) (hrefused : c.isAdmitted d m = false)
    (hbegin : c.begin m = (c.setListeners l, before)) (hbefore : startsIn before = []) :
    c.Answers m i d := by
  have hrest : (c.setListeners l).advance = none := advance_eq_none_of_stack (c := c) rfl hc.rest
  have halive : (c.setListeners l).isAlive = true := by simp [isAlive, setListeners, hhandle]
  constructor
  · intro hq
    rw [qualifies, hrefused, Bool.and_false] at hq
    cases hq
  · intro _
    rw [step_of_rest (by rw [hbegin]; exact hrest), hbegin, reap_of_isAlive halive]
    exact ⟨hbefore, rfl, fun _ => .inl rfl, rfl, rfl, rfl⟩

/-- A move that triggers a document starts a cycle for it if nothing is against it, and otherwise
changes nothing. -/
theorem Coherent.answers (h : c.Coherent) (hc : c.Ready) (ht : c.triggered m = some (i, d)) :
    c.Answers m i d := by
  obtain ⟨hhandle, htarget, hd⟩ := triggered_eq_some_iff.mp ht
  cases m with
  | run j =>
    obtain rfl : j = i := Option.some.inj htarget
    have hbegin : c.begin (.run j) = ((c.trigger j).1, [] ++ (c.trigger j).2) := if_pos hhandle
    exact h.answers_of_admitted (l := c.provider.listeners) hc hhandle hd rfl hbegin startsIn_nil
  | event j e =>
    obtain rfl : j = i := Option.some.inj htarget
    have hrefuses : (! c.isHandleHeld || (e = .saved && ! c.provider.settings.runOnSave) ||
        ! c.provider.settings.handles d.grammar) = ! c.isAdmitted d (.event j e) := by
      rw [isAdmitted, hhandle]
      cases c.provider.settings.handles d.grammar <;> cases c.provider.settings.runOnSave <;>
        cases e <;> rfl
    cases hadmitted : c.isAdmitted d (.event j e) with
    | true =>
      have hbegin : c.begin (.event j e) = ((c.trigger j).1, [] ++ (c.trigger j).2) := by
        simp [begin, hd, hrefuses, hadmitted]
      exact h.answers_of_admitted (l := c.provider.listeners) hc hhandle hd hadmitted hbegin
        startsIn_nil
    | false =>
      have hbegin : c.begin (.event j e) = (c, []) := by simp [begin, hd, hrefuses, hadmitted]
      exact .of_refused (l := c.provider.listeners) hc hhandle hadmitted hbegin startsIn_nil
  | listen channel =>
    cases channel with
    | invalidations => cases htarget
    | updates =>
      have hactive : c.active = some i := htarget
      have hregister : Change opensNew c [.registered (c.provider.listeners.register .updates ()).1]
          (c.setListeners (c.provider.listeners.register .updates ()).2) :=
        .register .updates hc.rest rfl hhandle
      cases hadmitted : c.isAdmitted d (.listen .updates) with
      | true =>
        have hhandles : c.provider.settings.handles d.grammar = true := hadmitted
        have hbegin : c.begin (.listen .updates) =
            (((c.setListeners (c.provider.listeners.register .updates ()).2).trigger i).1,
              [.registered (c.provider.listeners.register .updates ()).1] ++
                ((c.setListeners (c.provider.listeners.register .updates ()).2).trigger i).2) := by
          simp [begin, hhandle, hactive, hd, hhandles, setListeners]
        exact (h.change hregister fun _ _ hm => hm).answers_of_admitted hc hhandle hd hadmitted
          hbegin rfl
      | false =>
        have hhandles : c.provider.settings.handles d.grammar = false := hadmitted
        have hbegin : c.begin (.listen .updates) =
            (c.setListeners (c.provider.listeners.register .updates ()).2,
              [.registered (c.provider.listeners.register .updates ()).1]) := by
          simp [begin, hhandle, hactive, hd, hhandles, setListeners]
        exact .of_refused hc hhandle hadmitted hbegin rfl
  | _ => cases htarget

/-! ## Moves that trigger nothing -/

theorem startsIn_publishSome (c : Configuration) (source : Source) (o : Option Invalidation) :
    startsIn (c.publishSome source o).2 = [] := by
  rw [snd_publishSome]
  cases o <;> rfl

theorem mem_stack_publishSome (c : Configuration) (source : Source) (o : Option Invalidation)
    {f : Frame} (hf : f.isAttaching = true) (hmem : f ∈ (c.publishSome source o).1.stack) :
    f ∈ c.stack := by
  obtain ⟨told, htold, hstack⟩ := exists_stack_publishSome c source o
  rw [hstack] at hmem
  rcases List.mem_append.mp hmem with hmem | hmem
  · obtain ⟨_, _, rfl⟩ := htold f hmem
    cases hf
  · exact hmem

/-- Nothing is started by what is shown, and no document is to be compiled that was not before. -/
structure Idle (c : Configuration) (shown : List Event) (c' : Configuration) : Prop where
  shown : startsIn shown = []
  attaching : ∀ f ∈ c'.stack, f.isAttaching = true → f ∈ c.stack

theorem idle_receive (c : Configuration) (cycle : Cycle) (outcome : Outcome) :
    c.Idle (c.receive cycle outcome).2 (c.receive cycle outcome).1 := by
  have hstill (r : Report) : c.Idle (finished r) c := ⟨rfl, fun _ hmem _ => hmem⟩
  cases outcome with
  | failed causes => exact hstill _
  | nothing => exact hstill _
  | result r =>
    rw [receive]
    split
    · exact hstill _
    · split
      · exact hstill _
      · split
        · exact hstill _
        · refine ⟨startsIn_publishSome _ _ _, ?_⟩
          intro f hmem hf
          rcases List.mem_cons.mp (mem_stack_publishSome _ _ _ hf hmem) with rfl | hmem
          · cases hf
          · exact hmem

/-- A move that triggers no document begins no compile. -/
theorem idle_begin (ht : c.triggered m = none) : c.Idle (c.begin m).2 (c.begin m).1 := by
  have hstill : c.Idle [] c := ⟨rfl, fun _ hmem _ => hmem⟩
  have hnone (hhandle : c.isHandleHeld = true) {j : DocumentIndex} (hj : c.target m = some j) :
      c.documents[j]? = none := by
    cases hd : c.documents[j]? with
    | none => rfl
    | some d => cases ht.symm.trans (triggered_eq_some_iff.mpr ⟨hhandle, hj, hd⟩)
  cases m with
  | run j =>
    rw [begin]
    split
    · next hhandle =>
      rw [trigger, hnone hhandle rfl]
      exact hstill
    · exact hstill
  | event j e =>
    rw [begin]
    cases hhandle : c.isHandleHeld with
    | true =>
      rw [hnone hhandle rfl]
      exact hstill
    | false =>
      cases c.documents[j]? with
      | none => exact hstill
      | some d => exact hstill
  | listen channel =>
    rw [begin]
    split
    · exact hstill
    · next hhandle =>
      have hhandle : c.isHandleHeld = true := by simpa using hhandle
      dsimp only
      split
      · next j hactive =>
        rw [hnone hhandle hactive]
        exact ⟨rfl, fun _ hmem _ => hmem⟩
      · exact ⟨rfl, fun _ hmem _ => hmem⟩
  | poll place =>
    rw [begin]
    split
    · exact hstill
    · refine ⟨rfl, ?_⟩
      intro f hmem hf
      rcases List.mem_cons.mp hmem with rfl | hmem
      · cases hf
      · exact hmem
  | destroy j =>
    rw [begin]
    split
    · exact hstill
    · split
      · exact hstill
      · refine ⟨rfl, ?_⟩
        intro f hmem hf
        rcases List.mem_cons.mp hmem with rfl | hmem
        · cases hf
        · exact hmem
  | dispose =>
    rw [begin]
    split
    · exact hstill
    · exact ⟨rfl, fun _ hmem _ => hmem⟩
  | returns =>
    rw [begin]
    split
    · next hs => exact ⟨rfl, fun _ hmem _ => by rw [hs]; exact List.mem_cons_of_mem _ hmem⟩
    · exact hstill
  | answers outcome =>
    rw [begin]
    split
    · next cycle place stack hs =>
      have hbelow (f : Frame) (hmem : f ∈ stack) : f ∈ c.stack := by
        rw [hs]
        exact List.mem_cons_of_mem _ hmem
      cases outcome with
      | none => exact ⟨rfl, fun f hmem _ => hbelow f hmem⟩
      | some outcome =>
        have hreceive := idle_receive (c.setStack stack) cycle outcome
        exact ⟨hreceive.shown, fun f hmem hf => hbelow f (hreceive.attaching f hmem hf)⟩
    · exact hstill
  | _ => exact ⟨rfl, fun _ hmem _ => hmem⟩

/-- Only documents that are gone are to be compiled later. -/
def Calm (c : Configuration) : Prop :=
  ∀ i id key, .attaching i id key ∈ c.stack → c.IsGone id

/-- Between two pieces of work no compile is to be begun for a document that is there. -/
theorem Coherent.calm (h : c.Coherent) (hc : c.advance = none) : c.Calm := by
  intro i id key hmem
  rcases h.held with hreaped | ha
  · cases hreaped.work _ hmem
  · exact ((ha id).attaching i key).1 (mem_tail_of_rest hc (Option.some_ne_none id) hmem)

/-- A document that is gone when it is to be compiled is not flagged. -/
theorem Coherent.isWatched_attaching (h : c.Coherent) {key : Nat} {stack : List Frame}
    (hs : c.stack = .attaching i id key :: stack) (hgone : c.IsGone id) :
    c.provider.tracker.isWatched id = false := by
  have ha := h.attached_of_head hs (Option.some_ne_none id)
  cases hw : c.provider.tracker.isWatched id with
  | false => rfl
  | true =>
    obtain ⟨j, e, _, he, rfl, hholds⟩ := (ha id).flagged hw
    cases hholds with
    | kept _ _ hlive => exact absurd hgone (h.not_isGone he hlive)
    | fresh _ _ _ hlive => exact absurd hgone (h.not_isGone he hlive)
    | taken hhead =>
      rw [hs] at hhead
      cases hhead

theorem idle_keepPaths (c : Configuration) (cycle : Cycle) (u : Update) :
    c.Idle (c.keepPaths cycle u).2 (c.keepPaths cycle u).1 := by
  have hfinishing (n : Nat) (f : Frame) (hmem : f ∈ .finishing cycle n :: c.stack)
      (hf : f.isAttaching = true) : f ∈ c.stack := by
    rcases List.mem_cons.mp hmem with rfl | hmem
    · cases hf
    · exact hmem
  unfold keepPaths
  split
  · exact ⟨rfl, hfinishing _⟩
  · split
    · exact ⟨rfl, hfinishing _⟩
    · refine ⟨rfl, ?_⟩
      intro f hmem hf
      rcases List.mem_cons.mp hmem with rfl | hmem
      · cases hf
      · exact hfinishing _ f hmem hf

theorem idle_forgetDocument (c : Configuration) (x : DocumentId) :
    c.Idle (c.forgetDocument x).2 (c.forgetDocument x).1 := by
  refine ⟨startsIn_publishSome _ _ _, ?_⟩
  intro f hmem hf
  rw [forgetDocument_eq] at hmem
  rcases List.mem_cons.mp (mem_stack_publishSome _ _ _ hf hmem) with rfl | hmem
  · cases hf
  · exact hmem

/-- What is left to be done starts no cycle then. -/
theorem Coherent.idle_advance (h : c.Coherent) (hcalm : c.Calm)
    (hadvance : c.advance = some (c', shown)) : c.Idle shown c' := by
  unfold Configuration.advance at hadvance
  cases hs : c.stack with
  | nil =>
    rw [hs] at hadvance
    cases hadvance
  | cons f stack =>
    rw [hs] at hadvance
    have hbelow (hidle : (c.setStack stack).Idle shown c') : c.Idle shown c' := by
      refine ⟨hidle.shown, ?_⟩
      intro g hmem hg
      rw [hs]
      exact List.mem_cons_of_mem _ (hidle.attaching g hmem hg)
    have hput {g : Frame} {b : List Frame} (hb : ∀ f ∈ b, f.isAttaching = true → f ∈ stack)
        (hg : g.isAttaching = false) : ∀ f ∈ g :: b, f.isAttaching = true → f ∈ stack := by
      intro f hmem hf
      rcases List.mem_cons.mp hmem with rfl | hmem
      · cases hg.symm.trans hf
      · exact hb f hmem hf
    have hstack (f : Frame) (hmem : f ∈ stack) (_ : f.isAttaching = true) : f ∈ stack := hmem
    apply hbelow
    cases f with
    | calling => cases hadvance
    | asking => cases hadvance
    | delivering notice waiting =>
      cases waiting with
      | nil =>
        obtain ⟨rfl, rfl⟩ := Prod.mk.inj (Option.some.inj hadvance)
        exact ⟨rfl, hstack⟩
      | cons listener waiting =>
        obtain ⟨rfl, rfl⟩ := Prod.mk.inj (Option.some.inj hadvance)
        exact ⟨rfl, hput (hput hstack rfl) rfl⟩
    | updating cycle u =>
      obtain ⟨rfl, rfl⟩ := Prod.mk.inj (Option.some.inj hadvance)
      exact ⟨rfl, hput (hput hstack rfl) rfl⟩
    | recording cycle u =>
      have hidle := idle_keepPaths (c.setStack stack) cycle u
      have hkeep : (c.setStack stack).keepPaths cycle u = (c', shown) := Option.some.inj hadvance
      rw [hkeep] at hidle
      exact hidle
    | finishing cycle files =>
      obtain ⟨rfl, rfl⟩ := Prod.mk.inj (Option.some.inj hadvance)
      exact ⟨rfl, hstack⟩
    | forgetting x =>
      obtain ⟨rfl, rfl⟩ := Prod.mk.inj (Option.some.inj hadvance)
      exact ⟨rfl, by rw [stack_releaseWatch]; exact hstack⟩
    | destroying watches =>
      cases watches with
      | nil =>
        obtain ⟨rfl, rfl⟩ := Prod.mk.inj (Option.some.inj hadvance)
        exact ⟨rfl, hstack⟩
      | cons w watches =>
        dsimp only at hadvance
        split at hadvance
        · have hidle := idle_forgetDocument ((c.setStack stack).push (.destroying watches)) w.id
          have hforget : ((c.setStack stack).push (.destroying watches)).forgetDocument w.id =
              (c', shown) := Option.some.inj hadvance
          rw [hforget] at hidle
          exact ⟨hidle.shown, fun f hmem hf => hput hstack rfl f (hidle.attaching f hmem hf) hf⟩
        · obtain ⟨rfl, rfl⟩ := Prod.mk.inj (Option.some.inj hadvance)
          exact ⟨rfl, hput hstack rfl⟩
    | attaching j x key =>
      have hgone : c.IsGone x := hcalm j x key (by rw [hs]; exact List.mem_cons_self)
      have hunflagged := h.isWatched_attaching hs hgone
      have hattach : (c.setStack stack).attach j x key =
          (c.setStack stack, [.logged (.skippedDestroyed x)]) := by
        simp [Configuration.attach, setStack, hunflagged]
      obtain ⟨rfl, rfl⟩ := Prod.mk.inj (hattach.symm.trans (Option.some.inj hadvance))
      exact ⟨rfl, hstack⟩

theorem Idle.calm (h : c.Idle shown c') (hcalm : c.Calm)
    (hgone : ∀ id, c.IsGone id → c'.IsGone id) : c'.Calm := by
  intro i id key hmem
  exact hgone id (hcalm i id key (h.attaching _ hmem rfl))

theorem Coherent.chain (h : c.Coherent) (hchain : Chain opensNew c shown c') :
    c'.Coherent ∧ ∀ id, c.IsGone id → c'.IsGone id := by
  cases hchain with
  | none => exact ⟨h, fun _ hgone => hgone⟩
  | one hchange =>
    exact ⟨h.change hchange fun _ _ hm => hm, fun _ => isGone_of_change hchange⟩
  | two _ hregister hchange =>
    have hregistered := h.change hregister fun _ _ hm => hm
    exact ⟨hregistered.change hchange fun _ _ hm => hm,
      fun _ hgone => isGone_of_change hchange (isGone_of_change hregister hgone)⟩

/-- A move that triggers no document starts no cycle, nor does the work that follows. -/
theorem Coherent.step_of_not_triggered (h : c.Coherent) (hc : c.Ready)
    (hm : c.opensNew m = true) (ht : c.triggered m = none) : startsIn (c.step m).2 = [] := by
  have hidle := idle_begin ht
  have hbegin := h.chain (chain_begin hc hm)
  have hsettled := settle_keeps
    (P := fun b es => b.Coherent ∧ b.Calm ∧ startsIn es = []) ?_
    ⟨hbegin.1, hidle.calm (h.calm hc.rest) hbegin.2, hidle.shown⟩
  · exact hsettled.2.2
  intro b es b' more ⟨hb, hcalm, hes⟩ hadvance
  have hidle := hb.idle_advance hcalm hadvance
  have hchange : Change (fun _ _ => false) b more b' := change_advance hadvance
  refine ⟨hb.change hchange (fun _ _ hm => by cases hm), ?_, ?_⟩
  · exact hidle.calm hcalm fun _ => isGone_of_change hchange
  · rw [startsIn_append, hes, hidle.shown]
    rfl

end Configuration

end DiagnosticRelay
