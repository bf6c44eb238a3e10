import DiagnosticRelay.Proofs.Provider.Course

/-!
# What can change

Everything a pass can come to, once and for all: `Change` has one constructor for each way a move or
a piece of work goes, with what decided for it. A pass comes to one change, none, or two
(`Pass.chain`). Properties of runs are proved change by change (`run_keeps`), and nothing else opens
the definitions of moves and of work.
-/

namespace DiagnosticRelay.Configuration

/-- The configuration with other listeners. -/
def setListeners (c : Configuration) (listeners : Listeners Unit) : Configuration :=
  { c with provider := { c.provider with listeners } }

/-- The configuration with other work in progress. -/
def setStack (c : Configuration) (stack : List Frame) : Configuration := { c with stack }

@[simp] theorem stack_setListeners (c : Configuration) (listeners : Listeners Unit) :
    (c.setListeners listeners).stack = c.stack := rfl

@[simp] theorem stack_setStack (c : Configuration) (stack : List Frame) :
    (c.setStack stack).stack = stack := rfl

@[simp] theorem provider_setStack (c : Configuration) (stack : List Frame) :
    (c.setStack stack).provider = c.provider := rfl

@[simp] theorem documents_setStack (c : Configuration) (stack : List Frame) :
    (c.setStack stack).documents = c.documents := rfl

/-- The configuration once a document has been flagged, and its attaching begun. -/
def flag (c : Configuration) (i : DocumentIndex) (d : Document) : Configuration :=
  { c.setTracker (c.provider.tracker.setWatched d.id true) with
    nextKey := c.nextKey + 1
    stack := .attaching i d.id c.nextKey :: c.stack }

/-- The configuration disposed of. -/
def disposed (c : Configuration) : Configuration :=
  { c.releaseWatches with
    provider := { c.releaseWatches.provider with
      isDisposed := true
      listeners := c.provider.listeners.close
      tracker := c.provider.tracker.clear } }

/-- The listeners that a notice published now goes to. -/
def recipients (c : Configuration) (notice : Notice) : List ListenerId :=
  (c.provider.listeners.on notice.channel).map Prod.fst

theorem provider_publishSome (c : Configuration) (source : Source) (o : Option Invalidation) :
    (c.publishSome source o).1.provider = c.provider := by
  cases o <;> rfl

theorem documents_publishSome (c : Configuration) (source : Source) (o : Option Invalidation) :
    (c.publishSome source o).1.documents = c.documents := by
  cases o <;> rfl

theorem pending_publishSome (c : Configuration) (source : Source) (o : Option Invalidation) :
    (c.publishSome source o).1.pending = c.pending := by
  cases o <;> rfl

theorem isHandleHeld_publishSome (c : Configuration) (source : Source)
    (o : Option Invalidation) : (c.publishSome source o).1.isHandleHeld = c.isHandleHeld := by
  cases o <;> rfl

theorem stack_publishSome (c : Configuration) (source : Source) (o : Option Invalidation) :
    (c.publishSome source o).1.stack =
      (o.map fun i => Frame.delivering (.invalidation i) (c.recipients (.invalidation i))).toList ++
        c.stack := by
  cases o <;> rfl

/-- Publishing an invalidation puts nothing but its delivery on the stack. -/
theorem exists_stack_publishSome (c : Configuration) (source : Source) (o : Option Invalidation) :
    ∃ told : List Frame, (∀ f ∈ told, ∃ i ids, f = .delivering (.invalidation i) ids) ∧
      (c.publishSome source o).1.stack = told ++ c.stack := by
  refine ⟨_, ?_, stack_publishSome c source o⟩
  intro f hf
  obtain ⟨i, _, rfl⟩ := Option.map_eq_some_iff.mp (Option.mem_toList.mp hf)
  exact ⟨i, _, rfl⟩

theorem snd_publishSome (c : Configuration) (source : Source) (o : Option Invalidation) :
    (c.publishSome source o).2 =
      (o.map fun i => Event.published source (.invalidation i)).toList := by
  cases o <;> rfl

theorem forgetDocument_eq (c : Configuration) (id : DocumentId) :
    c.forgetDocument id = ((c.setTracker (c.provider.tracker.forget id).2).push
      (.forgetting id)).publishSome (.destruction id) (c.provider.tracker.forget id).1 := rfl

@[simp] theorem tracker_releaseWatch (c : Configuration) (id : DocumentId) :
    (c.releaseWatch id).provider.tracker = c.provider.tracker := by
  unfold releaseWatch
  split <;> rfl

@[simp] theorem listeners_releaseWatch (c : Configuration) (id : DocumentId) :
    (c.releaseWatch id).provider.listeners = c.provider.listeners := by
  unfold releaseWatch
  split <;> rfl

@[simp] theorem isDisposed_releaseWatch (c : Configuration) (id : DocumentId) :
    (c.releaseWatch id).provider.isDisposed = c.provider.isDisposed := by
  unfold releaseWatch
  split <;> rfl

@[simp] theorem isHandleHeld_releaseWatch (c : Configuration) (id : DocumentId) :
    (c.releaseWatch id).isHandleHeld = c.isHandleHeld := by
  unfold releaseWatch
  split <;> rfl

theorem pending_releaseWatch (c : Configuration) (id : DocumentId) :
    (c.releaseWatch id).pending = c.pending := by
  unfold releaseWatch
  split <;> rfl

theorem nextCycle_releaseWatch (c : Configuration) (id : DocumentId) :
    (c.releaseWatch id).nextCycle = c.nextCycle := by
  unfold releaseWatch
  split <;> rfl

/-- Attaching is to let go of the watch in the name of an identity, to keep another one, and to hand
out a cycle if the document is there. -/
theorem attach_of_isWatched (c : Configuration) (i : DocumentIndex) (id : DocumentId) (key : Nat)
    (h : c.provider.tracker.isWatched id = true) :
    ∃ (pending : List Cycle) (n : Nat), (c.attach i id key).1 =
      { c.releaseWatch id with
        provider := (c.releaseWatch id).provider.setWatch id (some ⟨i, key⟩)
        pending := pending
        nextCycle := n } ∧
      ∀ e ∈ (c.attach i id key).2, ∃ cycle id label, e = .started cycle id label := by
  unfold attach
  rw [if_pos h]
  dsimp only
  split
  · exact ⟨_, _, rfl, List.forall_mem_nil _⟩
  · refine ⟨_, _, rfl, ?_⟩
    intro e he
    exact ⟨_, _, _, List.mem_singleton.mp he⟩

/-- One thing that happens, and what it shows. A move of the rule is what it begins with, unless the
provider was at work. -/
inductive Change (rule : Configuration → Move → Bool) (c : Configuration) :
    List Event → Configuration → Prop
  | register (channel : Channel) (hc : c.advance = none) (hm : rule c (.listen channel) = true)
    (hhandle : c.isHandleHeld = true) :
    Change rule c [.registered (c.provider.listeners.register channel ()).1]
      (c.setListeners (c.provider.listeners.register channel ()).2)
  | release (id : ListenerId) (hc : c.advance = none) (hm : rule c (.release id) = true) :
    Change rule c [] (c.setListeners (c.provider.listeners.remove id).2)
  | skip (id : DocumentId) : Change rule c [.logged (.skippedUnsaved id)] c
  | start {i : DocumentIndex} {d : Document} (hc : c.advance = none)
    (hhandle : c.isHandleHeld = true) (hd : c.documents[i]? = some d)
    (hdisposed : c.provider.isDisposed = false) (hw : c.provider.tracker.isWatched d.id = true) :
    Change rule c (c.startCycle i d).2 (c.startCycle i d).1
  | watch {i : DocumentIndex} {d : Document} (hc : c.advance = none)
    (hhandle : c.isHandleHeld = true) (hd : c.documents[i]? = some d)
    (hdisposed : c.provider.isDisposed = false) (hw : c.provider.tracker.isWatched d.id = false)
    (hlive : d.isDestroyed = false) :
    Change rule c [] ((c.flag i d).updateDocument i (·.watch ⟨c.nextKey, d.id⟩))
  | watchDestroyed {i : DocumentIndex} {d : Document} (hc : c.advance = none)
    (hhandle : c.isHandleHeld = true) (hd : c.documents[i]? = some d)
    (hdisposed : c.provider.isDisposed = false) (hw : c.provider.tracker.isWatched d.id = false)
    (hdestroyed : d.isDestroyed = true) :
    Change rule c ((c.flag i d).forgetDocument d.id).2 ((c.flag i d).forgetDocument d.id).1
  | poll {place : Nat} {cycle : Cycle} (hc : c.advance = none) (hm : rule c (.poll place) = true)
    (h : c.pending[place]? = some cycle) :
    Change rule c [.asked cycle.number cycle.id (! cycle.isStarted)]
      ({ c with pending := c.pending.eraseIdx place }.push
        (.asking { cycle with isStarted := true } place))
  | abandon (place : Nat) (hc : c.advance = none) (hm : rule c (.abandon place) = true) :
    Change rule c [] { c with pending := c.pending.eraseIdx place }
  | openDocument (d : Document) (hc : c.advance = none) (hm : rule c (.openDocument d) = true) :
    Change rule c [] { c with documents := c.documents ++ [d] }
  | destroy {i : DocumentIndex} {d : Document} (hc : c.Ready) (hm : rule c (.destroy i) = true)
    (hd : c.documents[i]? = some d) (hlive : d.isDestroyed = false) :
    Change rule c [] ((c.updateDocument i Document.destroy).push (.destroying d.watches))
  | edit (i : DocumentIndex) (e : Edit) (hc : c.advance = none)
    (hm : rule c (.edit i e) = true) : Change rule c [] (c.updateDocument i (·.edit e))
  | focus (i : Option DocumentIndex) (hc : c.advance = none) (hm : rule c (.focus i) = true) :
    Change rule c [] { c with active := i }
  | dispose (hc : c.advance = none) (hm : rule c .dispose = true)
    (hhandle : c.isHandleHeld = true) (hdisposed : c.provider.isDisposed = false) :
    Change rule c [.logged .disposed] c.disposed
  | dropHandle (hc : c.advance = none) (hm : rule c .dropHandle = true) :
    Change rule c [] { c with isHandleHeld := false }
  | returns {listener : ListenerId} {notice : Notice} {stack : List Frame}
    (hm : rule c .returns = true) (h : c.stack = .calling listener notice :: stack) :
    Change rule c [] (c.setStack stack)
  | busy {cycle : Cycle} {place : Nat} {stack : List Frame} (hm : rule c (.answers none) = true)
    (h : c.stack = .asking cycle place :: stack) :
    Change rule c []
      { c with stack, pending := c.pending.insertIdx (min place c.pending.length) cycle }
  | discard {cycle : Cycle} {place : Nat} {stack : List Frame} {outcome : Outcome} {r : Report}
    (hm : rule c (.answers (some outcome)) = true) (h : c.stack = .asking cycle place :: stack)
    (hr : r = .discarded cycle.id ∨ ∃ e, r = .failed cycle.id e)
    (hunused : ∀ result d u, outcome = .result result → c.documents[cycle.document]? = some d →
      messagesOf result d.path d.lines = .ok u →
      c.provider.isDisposed = true ∨ c.provider.tracker.isWatched cycle.id = false) :
    Change rule c (finished r) (c.setStack stack)
  | resume {cycle : Cycle} {place : Nat} {stack : List Frame} {result : CompileResult}
    {d : Document} {u : Update} (hm : rule c (.answers (some (.result result))) = true)
    (h : c.stack = .asking cycle place :: stack) (hdisposed : c.provider.isDisposed = false)
    (hw : c.provider.tracker.isWatched cycle.id = true)
    (hd : c.documents[cycle.document]? = some d) (hu : messagesOf result d.path d.lines = .ok u) :
    Change rule c
      (((c.setTracker (c.provider.tracker.invalidate cycle.id).2).setStack
        (.updating cycle u :: stack)).publishSome (.cycle cycle.number cycle.id)
          (c.provider.tracker.invalidate cycle.id).1).2
      (((c.setTracker (c.provider.tracker.invalidate cycle.id).2).setStack
        (.updating cycle u :: stack)).publishSome (.cycle cycle.number cycle.id)
          (c.provider.tracker.invalidate cycle.id).1).1
  | hand {notice : Notice} {id : ListenerId} {waiting : List ListenerId} {stack : List Frame}
    (h : c.stack = .delivering notice (id :: waiting) :: stack) :
    Change rule c [.called id notice]
      (c.setStack (.calling id notice :: .delivering notice waiting :: stack))
  | handed {notice : Notice} {stack : List Frame} (h : c.stack = .delivering notice [] :: stack) :
    Change rule c [] (c.setStack stack)
  | update {cycle : Cycle} {u : Update} {stack : List Frame}
    (h : c.stack = .updating cycle u :: stack) :
    Change rule c [.published (.cycle cycle.number cycle.id) (.update u)]
      (c.setStack (.delivering (.update u) (c.recipients (.update u)) ::
        .recording cycle u :: stack))
  | record {cycle : Cycle} {u : Update} {stack : List Frame}
    (h : c.stack = .recording cycle u :: stack)
    (hw : c.provider.tracker.isWatched cycle.id = true) :
    Change rule c [] ((c.setTracker (c.provider.tracker.record cycle.id u.paths)).setStack
      (.finishing cycle u.paths.length :: stack))
  | leave {cycle : Cycle} {u : Update} {stack : List Frame}
    (h : c.stack = .recording cycle u :: stack)
    (hw : c.provider.tracker.isWatched cycle.id = false) (hu : u.paths = []) :
    Change rule c [] (c.setStack (.finishing cycle u.paths.length :: stack))
  | retract {cycle : Cycle} {u : Update} {stack : List Frame}
    (h : c.stack = .recording cycle u :: stack)
    (hw : c.provider.tracker.isWatched cycle.id = false) (hu : u.paths ≠ []) :
    Change rule c [.published (.cycle cycle.number cycle.id) (.invalidation ⟨u.paths⟩)]
      (c.setStack (.delivering (.invalidation ⟨u.paths⟩) (c.recipients (.invalidation ⟨u.paths⟩)) ::
        .finishing cycle u.paths.length :: stack))
  | finish {cycle : Cycle} {files : Nat} {stack : List Frame}
    (h : c.stack = .finishing cycle files :: stack) :
    Change rule c (finished (.published cycle.id files)) (c.setStack stack)
  | letGo {id : DocumentId} {stack : List Frame} (h : c.stack = .forgetting id :: stack) :
    Change rule c [.logged (.stoppedTracking id)] ((c.setStack stack).releaseWatch id)
  | called {stack : List Frame} (h : c.stack = .destroying [] :: stack) :
    Change rule c [] (c.setStack stack)
  | call {w : Watch} {watches : List Watch} {stack : List Frame}
    (h : c.stack = .destroying (w :: watches) :: stack)
    (halive : (c.setStack (.destroying watches :: stack)).isAlive = true) :
    Change rule c ((c.setStack (.destroying watches :: stack)).forgetDocument w.id).2
      ((c.setStack (.destroying watches :: stack)).forgetDocument w.id).1
  | miss {w : Watch} {watches : List Watch} {stack : List Frame}
    (h : c.stack = .destroying (w :: watches) :: stack)
    (halive : (c.setStack (.destroying watches :: stack)).isAlive = false) :
    Change rule c [] (c.setStack (.destroying watches :: stack))
  | attach {i : DocumentIndex} {id : DocumentId} {key : Nat} {stack : List Frame}
    (h : c.stack = .attaching i id key :: stack)
    (hw : c.provider.tracker.isWatched id = true) :
    Change rule c ((c.setStack stack).attach i id key).2 ((c.setStack stack).attach i id key).1
  | detach {i : DocumentIndex} {id : DocumentId} {key : Nat} {stack : List Frame}
    (h : c.stack = .attaching i id key :: stack)
    (hw : c.provider.tracker.isWatched id = false) :
    Change rule c [.logged (.skippedDestroyed id)] (c.setStack stack)
  | reap (hc : c.advance = none) (hdead : c.isAlive = false) : Change rule c [] c.releaseWatches

variable {rule : Configuration → Move → Bool} {c : Configuration}

/-- What a pass comes to: one change, none, or two, when registering a listener has the active
document compiled. -/
inductive Chain (rule : Configuration → Move → Bool) (c : Configuration) :
    List Event → Configuration → Prop
  | none : Chain rule c [] c
  | one {shown : List Event} {c' : Configuration} (h : Change rule c shown c') :
    Chain rule c shown c'
  | two {shown more : List Event} {l : Listeners Unit} {c' : Configuration} (hc : c.advance = none)
    (hregister : Change rule c shown (c.setListeners l))
    (h : Change rule (c.setListeners l) more c') : Chain rule c (shown ++ more) c'

/-- What every change keeps, a chain of changes keeps. -/
theorem Chain.keeps {P : Configuration → List Event → Prop}
    (hchange : ∀ {c es shown c'}, P c es → Change rule c shown c' → P c' (es ++ shown))
    {shown : List Event} {c' : Configuration} (h : Chain rule c shown c') {es : List Event}
    (hc : P c es) : P c' (es ++ shown) := by
  cases h with
  | none => rwa [List.append_nil]
  | one h => exact hchange hc h
  | two _ hregister h =>
    rw [← List.append_assoc]
    exact hchange (hchange hc hregister) h

/-- Compiling a document is one change, or none. -/
theorem change_trigger (hc : c.advance = none) (hhandle : c.isHandleHeld = true)
    (i : DocumentIndex) :
    c.trigger i = (c, []) ∨ Change rule c (c.trigger i).2 (c.trigger i).1 := by
  unfold trigger
  cases hd : c.documents[i]? with
  | none => exact .inl rfl
  | some d =>
    cases hdisposed : c.provider.isDisposed with
    | true => exact .inl rfl
    | false =>
      by_cases hpath : d.path.isNone = true
      · simp only [hpath]
        exact .inr (.skip d.id)
      · simp only [hpath]
        unfold Tracker.watch
        cases hw : c.provider.tracker.isWatched d.id with
        | true => exact .inr (.start hc hhandle hd hdisposed hw)
        | false =>
          cases hdestroyed : d.isDestroyed with
          | true => exact .inr (.watchDestroyed hc hhandle hd hdisposed hw hdestroyed)
          | false => exact .inr (.watch hc hhandle hd hdisposed hw hdestroyed)

theorem chain_trigger (hc : c.advance = none) (hhandle : c.isHandleHeld = true)
    (i : DocumentIndex) : Chain rule c (c.trigger i).2 (c.trigger i).1 := by
  rcases change_trigger hc hhandle i with hnothing | h
  · rw [hnothing]
    exact .none
  · exact .one h

/-- An answer is one change. -/
theorem change_receive {cycle : Cycle} {place : Nat} {stack : List Frame} {outcome : Outcome}
    (hm : rule c (.answers (some outcome)) = true) (h : c.stack = .asking cycle place :: stack) :
    Change rule c ((c.setStack stack).receive cycle outcome).2
      ((c.setStack stack).receive cycle outcome).1 := by
  cases outcome with
  | failed causes =>
    refine .discard hm h (.inr ⟨_, rfl⟩) ?_
    rintro result d u ⟨⟩
  | nothing =>
    refine .discard hm h (.inl rfl) ?_
    rintro result d u ⟨⟩
  | result r =>
    rw [receive]
    split
    · next hgone =>
      refine .discard hm h (.inl rfl) fun _ _ _ _ _ _ => ?_
      simpa using hgone
    · next hgone =>
      have hkept : c.provider.isDisposed = false ∧
          c.provider.tracker.isWatched cycle.id = true := by
        simpa using hgone
      cases hd : (c.setStack stack).documents[cycle.document]? with
      | none =>
        refine .discard hm h (.inl rfl) fun _ _ _ _ hd' _ => ?_
        cases hd.symm.trans hd'
      | some d =>
        dsimp only
        cases hu : messagesOf r d.path d.lines with
        | error e =>
          refine .discard hm h (.inr ⟨_, rfl⟩) fun r' d' u' hr' hd' hu' => ?_
          obtain rfl : r = r' := Outcome.result.inj hr'
          obtain rfl : d = d' := Option.some.inj (hd.symm.trans hd')
          cases hu.symm.trans hu'
        | ok u => exact .resume hm h hkept.1 hkept.2 hd hu

/-- Registering a listener is one change, or two. -/
theorem chain_listen (hc : c.advance = none) {channel : Channel}
    (hm : rule c (.listen channel) = true) :
    Chain rule c (c.begin (.listen channel)).2 (c.begin (.listen channel)).1 := by
  rw [begin]
  split
  · exact .none
  · next hhandle =>
    have hhandle : c.isHandleHeld = true := by simpa using hhandle
    have hreg := Change.register channel hc hm hhandle
    dsimp only
    split
    · next i _ =>
      split
      · exact .one hreg
      · split
        · have hrest : (c.setListeners (c.provider.listeners.register .updates ()).2).advance =
              none := advance_eq_none_of_stack (stack_setListeners c _).symm hc
          rcases change_trigger hrest hhandle i with hnothing | h
          · show Chain rule c ([.registered _] ++
              ((c.setListeners (c.provider.listeners.register .updates ()).2).trigger i).2)
              ((c.setListeners (c.provider.listeners.register .updates ()).2).trigger i).1
            rw [hnothing]
            exact .one hreg
          · exact .two hc hreg h
        · exact .one hreg
    · exact .one hreg

/-- What a move does at once is a chain of changes. -/
theorem chain_begin (hc : c.Ready) {m : Move} (hm : rule c m = true) :
    Chain rule c (c.begin m).2 (c.begin m).1 := by
  cases m with
  | run i =>
    rw [begin]
    split
    · next hhandle => exact chain_trigger hc.rest hhandle i
    · exact .none
  | event i e =>
    rw [begin]
    cases c.documents[i]? with
    | none => exact .none
    | some d =>
      dsimp only
      split
      · exact .none
      · next hevent =>
        simp only [Bool.or_eq_true, not_or, Bool.not_eq_true, Bool.not_eq_false'] at hevent
        exact chain_trigger hc.rest hevent.1.1 i
  | listen channel => exact chain_listen hc.rest hm
  | release id => exact .one (Change.release id hc.rest hm)
  | poll place =>
    rw [begin]
    split
    · exact .none
    · next h => exact .one (Change.poll hc.rest hm h)
  | abandon place => exact .one (Change.abandon place hc.rest hm)
  | openDocument d => exact .one (Change.openDocument d hc.rest hm)
  | destroy i =>
    rw [begin]
    cases hd : c.documents[i]? with
    | none => exact .none
    | some d =>
      cases hlive : d.isDestroyed with
      | true =>
        simp only [hlive, if_true]
        exact .none
      | false =>
        simp only [hlive]
        exact .one (Change.destroy hc hm hd hlive)
  | edit i e => exact .one (Change.edit i e hc.rest hm)
  | focus i => exact .one (Change.focus i hc.rest hm)
  | dispose =>
    rw [begin]
    split
    · exact .none
    · next h =>
      simp only [Bool.or_eq_true, not_or, Bool.not_eq_true, Bool.not_eq_false'] at h
      exact .one (Change.dispose hc.rest hm h.1 h.2)
  | dropHandle => exact .one (Change.dropHandle hc.rest hm)
  | returns =>
    rw [begin]
    split
    · next h => exact .one (Change.returns hm h)
    · exact .none
  | answers outcome =>
    rw [begin]
    split
    · next h =>
      cases outcome with
      | none => exact .one (Change.busy hm h)
      | some outcome => exact .one (change_receive hm h)
    · exact .none

/-- Keeping or clearing the paths of an update is one change. -/
theorem change_keepPaths {cycle : Cycle} {u : Update} {stack : List Frame}
    (h : c.stack = .recording cycle u :: stack) :
    Change rule c ((c.setStack stack).keepPaths cycle u).2
      ((c.setStack stack).keepPaths cycle u).1 := by
  unfold keepPaths
  split
  · next hw => exact .record h hw
  · next hw =>
    have hw : c.provider.tracker.isWatched cycle.id = false := by simpa using hw
    split
    · next hu => exact .leave h hw (List.isEmpty_iff.mp hu)
    · next hu => exact .retract h hw fun hnil => hu (List.isEmpty_iff.mpr hnil)

/-- Compiling a document that has just been watched is one change. -/
theorem change_attach {i : DocumentIndex} {id : DocumentId} {key : Nat} {stack : List Frame}
    (h : c.stack = .attaching i id key :: stack) :
    Change rule c ((c.setStack stack).attach i id key).2
      ((c.setStack stack).attach i id key).1 := by
  cases hw : c.provider.tracker.isWatched id with
  | true => exact .attach h hw
  | false =>
    have hdetach : (c.setStack stack).attach i id key =
        (c.setStack stack, [.logged (.skippedDestroyed id)]) := by
      simp [attach, setStack, hw]
    rw [hdetach]
    exact .detach h hw

/-- A piece of work is one change. -/
theorem change_advance {c' : Configuration} {shown : List Event}
    (h : c.advance = some (c', shown)) : Change rule c shown c' := by
  unfold advance at h
  cases hs : c.stack with
  | nil =>
    rw [hs] at h
    cases h
  | cons f stack =>
    rw [hs] at h
    cases f with
    | calling => cases h
    | asking => cases h
    | delivering notice waiting =>
      cases waiting with
      | nil =>
        obtain ⟨rfl, rfl⟩ := Prod.mk.inj (Option.some.inj h)
        exact .handed hs
      | cons id waiting =>
        obtain ⟨rfl, rfl⟩ := Prod.mk.inj (Option.some.inj h)
        exact .hand hs
    | updating cycle u =>
      obtain ⟨rfl, rfl⟩ := Prod.mk.inj (Option.some.inj h)
      exact .update hs
    | recording cycle u =>
      obtain ⟨rfl, rfl⟩ := Prod.mk.inj (Option.some.inj h)
      exact change_keepPaths hs
    | finishing cycle files =>
      obtain ⟨rfl, rfl⟩ := Prod.mk.inj (Option.some.inj h)
      exact .finish hs
    | forgetting id =>
      obtain ⟨rfl, rfl⟩ := Prod.mk.inj (Option.some.inj h)
      exact .letGo hs
    | destroying watches =>
      cases watches with
      | nil =>
        obtain ⟨rfl, rfl⟩ := Prod.mk.inj (Option.some.inj h)
        exact .called hs
      | cons w watches =>
        dsimp only at h
        split at h
        · next halive =>
          obtain ⟨rfl, rfl⟩ := Prod.mk.inj (Option.some.inj h)
          exact .call hs halive
        · next halive =>
          obtain ⟨rfl, rfl⟩ := Prod.mk.inj (Option.some.inj h)
          exact .miss hs (eq_false_of_ne_true halive)
    | attaching i id key =>
      have hattach : (c.setStack stack).attach i id key = (c', shown) := Option.some.inj h
      have hchange := @change_attach rule c i id key stack hs
      rw [hattach] at hchange
      exact hchange

/-- A pass is a chain of changes. -/
theorem Pass.chain {shown : List Event} {c' : Configuration} (h : Pass rule c shown c') :
    Chain rule c shown c' := by
  cases h with
  | move hc hm => exact chain_begin hc hm
  | work h => exact .one (change_advance h)
  | reap h =>
    cases halive : c.isAlive with
    | true =>
      rw [reap_of_isAlive halive]
      exact .none
    | false =>
      rw [reap_of_not_isAlive halive]
      exact .one (Change.reap h halive)

/-- What every change keeps, a run keeps. -/
theorem run_keeps {P : Configuration → List Event → Prop} {start : Configuration} {ms : List Move}
    (hready : start.Ready) (hms : admits rule start ms = true) (hstart : P start [])
    (hchange : ∀ {c es shown c'}, P c es → Change rule c shown c' → P c' (es ++ shown)) :
    P (start.run ms).1 (start.run ms).2 :=
  run_invariant hready hms hstart fun hc hpass => hpass.chain.keeps hchange hc

/-! ## Disposing and dropping the handle -/

theorem isDisposed_forgetDocument (b : Configuration) (x : DocumentId) :
    (b.forgetDocument x).1.provider.isDisposed = b.provider.isDisposed := by
  rw [forgetDocument_eq, provider_publishSome]
  rfl

/-- What a change does to the listeners: one is registered or removed, or all of them are because
the provider is disposed of. -/
theorem Change.listeners_or (h : Change rule c shown c') :
    (c'.provider.isDisposed = c.provider.isDisposed ∧
      (c'.provider.listeners = c.provider.listeners ∨
        (∃ channel, c'.provider.listeners = (c.provider.listeners.register channel ()).2) ∨
        ∃ id, c'.provider.listeners = (c.provider.listeners.remove id).2)) ∨
    (c'.provider.isDisposed = true ∧ c'.provider.listeners = c.provider.listeners.close) := by
  cases h with
  | register channel => exact .inl ⟨rfl, .inr (.inl ⟨channel, rfl⟩)⟩
  | release id => exact .inl ⟨rfl, .inr (.inr ⟨id, rfl⟩)⟩
  | dispose => exact .inr ⟨rfl, rfl⟩
  | watchDestroyed =>
    refine .inl ⟨isDisposed_forgetDocument _ _, .inl ?_⟩
    rw [forgetDocument_eq, provider_publishSome]
    rfl
  | resume => simp [provider_publishSome, setTracker]
  | letGo => simp
  | call =>
    refine .inl ⟨isDisposed_forgetDocument _ _, .inl ?_⟩
    rw [forgetDocument_eq, provider_publishSome]
    rfl
  | @attach i x key stack hs hw =>
    obtain ⟨pending, n, hattach, _⟩ := attach_of_isWatched (c.setStack stack) i x key hw
    rw [hattach]
    simp [Provider.setWatch]
  | _ => exact .inl ⟨rfl, .inl rfl⟩

/-- What is disposed of once stays so. -/
theorem isDisposed_of_change (h : Change rule c shown c')
    (hopen : c'.provider.isDisposed = false) : c.provider.isDisposed = false := by
  rcases h.listeners_or with ⟨hsame, _⟩ | ⟨hdisposed, _⟩
  · rw [← hsame, hopen]
  · cases hopen.symm.trans hdisposed

theorem isDisposed_of_pass (h : Pass rule c shown c')
    (hopen : c'.provider.isDisposed = false) : c.provider.isDisposed = false := by
  cases h.chain with
  | none => exact hopen
  | one hchange => exact isDisposed_of_change hchange hopen
  | two _ hregister hchange =>
    exact isDisposed_of_change hregister (isDisposed_of_change hchange hopen)

theorem isDisposed_of_run (hc : c.Ready) {ms : List Move}
    (hopen : (c.run ms).1.provider.isDisposed = false) : c.provider.isDisposed = false :=
  run_keeps
    (P := fun b _ => b.provider.isDisposed = false → c.provider.isDisposed = false) hc
    (admits_all c ms) id (fun h hchange hopen => h (isDisposed_of_change hchange hopen)) hopen

theorem isDisposed_reap (c : Configuration) :
    c.reap.provider.isDisposed = c.provider.isDisposed := by
  unfold reap
  split <;> rfl

theorem isHandleHeld_reap (c : Configuration) : c.reap.isHandleHeld = c.isHandleHeld := by
  unfold reap
  split <;> rfl

/-- Whoever holds the handle disposes of the provider at once. -/
theorem isDisposed_step (hc : c.Ready) (hhandle : c.isHandleHeld = true) :
    (c.step .dispose).1.provider.isDisposed = true := by
  obtain ⟨hdisposed, hstack⟩ : (c.begin .dispose).1.provider.isDisposed = true ∧
      c.stack = (c.begin .dispose).1.stack := by
    cases hdisposed : c.provider.isDisposed with
    | true => simp [begin, hhandle, hdisposed]
    | false =>
      simp only [begin, hhandle, hdisposed]
      exact ⟨rfl, rfl⟩
  rw [step_of_rest (advance_eq_none_of_stack hstack hc.rest), isDisposed_reap, hdisposed]

/-- The handle is dropped by the host alone. -/
theorem isHandleHeld_of_change (h : Change rule c shown c')
    (hrule : ∀ b, rule b .dropHandle = false) : c'.isHandleHeld = c.isHandleHeld := by
  cases h with
  | dropHandle _ hm => simp [hrule] at hm
  | watchDestroyed =>
    rw [forgetDocument_eq, isHandleHeld_publishSome]
    rfl
  | resume =>
    rw [isHandleHeld_publishSome]
    rfl
  | letGo =>
    rw [isHandleHeld_releaseWatch]
    rfl
  | call =>
    rw [forgetDocument_eq, isHandleHeld_publishSome]
    rfl
  | @attach i x key stack hs hw =>
    obtain ⟨pending, n, hattach, _⟩ := attach_of_isWatched (c.setStack stack) i x key hw
    rw [hattach]
    exact isHandleHeld_releaseWatch _ x
  | _ => rfl

theorem isHandleHeld_step (hc : c.Ready) (m : Move) :
    (c.step m).1.isHandleHeld = true ↔ c.isHandleHeld = true ∧ m ≠ .dropHandle := by
  by_cases hm : m = .dropHandle
  · subst hm
    have hrest : (c.begin .dropHandle).1.advance = none :=
      advance_eq_none_of_stack (c := c) rfl hc.rest
    rw [step_of_rest hrest, isHandleHeld_reap]
    simp [begin]
  · have hms : admits (fun _ m => m ≠ .dropHandle) c [m] = true := by simp [admits, hm]
    have hkeeps : (c.run [m]).1.isHandleHeld = c.isHandleHeld :=
      run_keeps (P := fun b _ => b.isHandleHeld = c.isHandleHeld) hc hms rfl
        fun hsame hchange => (isHandleHeld_of_change hchange (by simp)).trans hsame
    have hstep : (c.step m).1.isHandleHeld = c.isHandleHeld := by
      rwa [run_cons, run_nil] at hkeeps
    simp [hstep, hm]

/-- The handle is held until it is dropped. -/
theorem isHandleHeld_run (hc : c.Ready) (ms : List Move) :
    (c.run ms).1.isHandleHeld = true ↔ c.isHandleHeld = true ∧ .dropHandle ∉ ms := by
  induction ms generalizing c with
  | nil => simp
  | cons m ms ih =>
    rw [run_cons, List.mem_cons, not_or]
    dsimp only
    rw [ih (ready_step c m), isHandleHeld_step hc]
    simp only [and_assoc, ne_eq, eq_comm]

end DiagnosticRelay.Configuration
