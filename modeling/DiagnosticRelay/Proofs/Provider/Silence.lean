import DiagnosticRelay.Proofs.Provider.Failure

/-!
# Disposing

A notice goes to the listeners that are registered when it is published, and what one of them does
while it is called leaves the others that wait for it where they are. Disposing is no exception. It
removes every listener, so nobody is there for what is published later; but a listener that
disposes of the provider is called by a delivery, and that delivery goes on, as do those it is
nested in. So the calls made since and the calls still `awaited` are, at any later time, the calls
that were awaited when the provider was disposed of.
-/

namespace DiagnosticRelay

/-- The calls of listeners in what is shown. -/
def callsIn (es : List Event) : List (ListenerId × Notice) :=
  es.filterMap fun
    | .called id notice => some (id, notice)
    | _ => none

@[simp] theorem callsIn_nil : callsIn [] = [] := rfl

@[simp] theorem callsIn_append (es es' : List Event) :
    callsIn (es ++ es') = callsIn es ++ callsIn es' := by
  simp [callsIn]

/-- The calls that a frame has still to make. -/
def Frame.awaited : Frame → List (ListenerId × Notice)
  | .delivering notice waiting => waiting.map fun id => (id, notice)
  | _ => []

namespace Configuration

/-- The calls that deliveries in progress have still to make, the innermost delivery's first. -/
def awaited (c : Configuration) : List (ListenerId × Notice) := c.stack.flatMap Frame.awaited

variable {rule : Configuration → Move → Bool} {c c' : Configuration} {shown : List Event}

theorem awaited_of_stack {fs : List Frame} (h : c.stack = fs) :
    c.awaited = fs.flatMap Frame.awaited := by
  rw [awaited, h]

/-- The provider is disposed of, and nobody is registered with it. -/
structure Silent (c : Configuration) : Prop where
  isDisposed : c.provider.isDisposed = true
  shut : c.provider.listeners.Shut

theorem Silent.recipients_eq (h : c.Silent) (notice : Notice) : c.recipients notice = [] := by
  simp [recipients, h.shut.empty]

/-- Once disposed of, the provider has no listeners, and gets no more. -/
theorem shut_of_change (h : c.provider.isDisposed = true → c.provider.listeners.Shut)
    (hchange : Change rule c shown c') (hdisposed : c'.provider.isDisposed = true) :
    c'.provider.listeners.Shut := by
  rcases hchange.listeners_or with ⟨hsame, hlisteners⟩ | ⟨_, hclosed⟩
  · have hshut := h (hsame.symm.trans hdisposed)
    rcases hlisteners with heq | ⟨channel, heq⟩ | ⟨id, heq⟩
    · rw [heq]
      exact hshut
    · rw [heq, Listeners.register_of_isClosed hshut.closed]
      exact hshut
    · rw [heq, hshut.remove_eq]
      exact hshut
  · rw [hclosed]
    exact Listeners.shut_close _

theorem shut_run (settings : Settings) (documents : List Document) (ms : List Move)
    (h : ((new settings documents).run ms).1.provider.isDisposed = true) :
    ((new settings documents).run ms).1.provider.listeners.Shut := by
  have hinvariant := run_keeps
    (P := fun c _ => c.provider.isDisposed = true → c.provider.listeners.Shut)
    (ready_new settings documents) (admits_all _ ms)
    (fun hnew => absurd hnew (by simp [new, Provider.new])) shut_of_change
  exact hinvariant h

theorem callsIn_publishSome (b : Configuration) (source : Source) (o : Option Invalidation) :
    callsIn (b.publishSome source o).2 = [] := by
  rw [snd_publishSome]
  cases o <;> rfl

namespace Silent

/-- Nobody is waiting for an invalidation that is published now. -/
theorem awaited_publishSome {b : Configuration} (h : b.Silent) (source : Source)
    (o : Option Invalidation) : (b.publishSome source o).1.awaited = b.awaited := by
  rw [awaited_of_stack (stack_publishSome b source o), awaited]
  cases o <;> simp [Frame.awaited, h.recipients_eq]

theorem of_change (h : c.Silent) (hchange : Change rule c shown c') : c'.Silent := by
  have hdisposed : c'.provider.isDisposed = true := by
    rcases hchange.listeners_or with ⟨hsame, _⟩ | ⟨hdisposed, _⟩
    · rw [hsame, h.isDisposed]
    · exact hdisposed
  exact ⟨hdisposed, shut_of_change (fun _ => h.shut) hchange hdisposed⟩

/-- A change makes an awaited call, the first one, or leaves all of them awaited. -/
theorem awaited_of_change (h : c.Silent) (hchange : Change rule c shown c') :
    callsIn shown ++ c'.awaited = c.awaited := by
  have hdisposed := h.isDisposed
  cases hchange with
  | start _ _ _ hnot => cases hnot.symm.trans hdisposed
  | watch _ _ _ hnot => cases hnot.symm.trans hdisposed
  | watchDestroyed _ _ _ hnot => cases hnot.symm.trans hdisposed
  | dispose _ _ _ hnot => cases hnot.symm.trans hdisposed
  | resume _ _ hnot => cases hnot.symm.trans hdisposed
  | returns _ hs => rw [awaited_of_stack hs]; rfl
  | busy _ hs => rw [awaited_of_stack hs]; rfl
  | discard _ hs => rw [awaited_of_stack hs]; rfl
  | hand hs => rw [awaited_of_stack hs]; rfl
  | handed hs => rw [awaited_of_stack hs]; rfl
  | update hs =>
    rw [awaited_of_stack hs, awaited_of_stack (stack_setStack _ _), h.recipients_eq]
    rfl
  | record hs => rw [awaited_of_stack hs]; rfl
  | leave hs => rw [awaited_of_stack hs]; rfl
  | retract hs =>
    rw [awaited_of_stack hs, awaited_of_stack (stack_setStack _ _), h.recipients_eq]
    rfl
  | finish hs => rw [awaited_of_stack hs]; rfl
  | letGo hs =>
    rw [awaited_of_stack hs, awaited_of_stack (stack_releaseWatch _ _)]
    rfl
  | called hs => rw [awaited_of_stack hs]; rfl
  | @call w watches stack hs =>
    have hbefore : ((c.setStack (.destroying watches :: stack)).setTracker
        (c.provider.tracker.forget w.id).2 |>.push (.forgetting w.id)).Silent :=
      ⟨h.isDisposed, h.shut⟩
    rw [forgetDocument_eq, callsIn_publishSome, awaited_of_stack hs]
    exact hbefore.awaited_publishSome _ _
  | miss hs => rw [awaited_of_stack hs]; rfl
  | @attach i x key stack hs hw =>
    obtain ⟨_, _, _, hstarted⟩ := attach_of_isWatched (c.setStack stack) i x key hw
    have hnone : callsIn ((c.setStack stack).attach i x key).2 = [] := by
      rw [callsIn, List.filterMap_eq_nil_iff]
      intro e he
      obtain ⟨_, _, _, rfl⟩ := hstarted e he
      rfl
    rw [hnone, awaited_of_stack hs, awaited_of_stack (stack_attach _ _ _ _)]
    rfl
  | detach hs => rw [awaited_of_stack hs]; rfl
  | _ => rfl

/-- Of the awaited calls some are made, the others are still awaited. -/
theorem awaited_run (h : c.Silent) (hc : c.Ready) (ms : List Move) :
    callsIn (c.run ms).2 ++ (c.run ms).1.awaited = c.awaited := by
  have hinvariant := run_keeps
    (P := fun c' es => c'.Silent ∧ callsIn es ++ c'.awaited = c.awaited) hc (admits_all c ms)
    ⟨h, rfl⟩ ?_
  · exact hinvariant.2
  intro c' es shown c'' ⟨hc', hes⟩ hchange
  refine ⟨hc'.of_change hchange, ?_⟩
  rw [callsIn_append, List.append_assoc, hc'.awaited_of_change hchange, hes]

end Silent

/-- Disposing calls nobody, and leaves the calls that are awaited. -/
theorem step_dispose_calls (hc : c.Ready) (hheld : c.isHandleHeld = true) :
    (c.step .dispose).1.provider.isDisposed = true ∧ callsIn (c.step .dispose).2 = [] ∧
      (c.step .dispose).1.awaited = c.awaited := by
  cases hdisposed : c.provider.isDisposed with
  | true =>
    have hbegin : c.begin .dispose = (c, []) := by simp [begin, hheld, hdisposed]
    rw [step_of_rest (by rw [hbegin]; exact hc.rest), hbegin, hc.reaped]
    exact ⟨hdisposed, rfl, rfl⟩
  | false =>
    have hbegin : c.begin .dispose = (c.disposed, [.logged .disposed]) := by
      simp only [begin, hheld, hdisposed]
      rfl
    have hrest : c.disposed.advance = none := advance_eq_none_of_stack (c := c) rfl hc.rest
    have halive : c.disposed.isAlive = true := by
      simp [Configuration.isAlive, disposed, releaseWatches, hheld]
    rw [step_of_rest (by rw [hbegin]; exact hrest), hbegin, reap_of_isAlive halive]
    exact ⟨rfl, rfl, rfl⟩

/-- Once the provider has been disposed of, by the host or by a listener that is being called, the
only listeners called are those that deliveries in progress had still to call at that moment: each
of them once, in that order and with the notice that was being delivered, whatever is done in the
meantime. -/
theorem run_silenced {settings : Settings} {documents : List Document} {before : List Move}
    (hheld : ((new settings documents).run before).1.isHandleHeld = true) (after : List Move) :
    (((new settings documents).run before).1.step .dispose).1.provider.isDisposed = true ∧
    callsIn (((new settings documents).run before).1.step .dispose).2 = [] ∧
    callsIn ((((new settings documents).run before).1.step .dispose).1.run after).2 ++
        ((((new settings documents).run before).1.step .dispose).1.run after).1.awaited =
      ((new settings documents).run before).1.awaited := by
  have hready := ready_run (ready_new settings documents) before
  obtain ⟨hdisposed, hnone, hawaited⟩ := step_dispose_calls hready hheld
  refine ⟨hdisposed, hnone, ?_⟩
  have hshut :
      (((new settings documents).run before).1.step .dispose).1.provider.listeners.Shut := by
    have h := shut_run settings documents (before ++ [.dispose])
    simp only [run_append, run_cons, run_nil] at h
    exact h hdisposed
  rw [← hawaited]
  exact Silent.awaited_run ⟨hdisposed, hshut⟩ (ready_step _ _) after

/-- The first of two listeners is being told of an update. -/
def firstListening : Configuration :=
  ((new .default [savedDocument]).run
    [.listen .updates, .listen .updates, .run 0, .poll 0, answerIn "/src/b.h"]).1

/-- If it disposes of the provider, the second one still hears of the update, and nothing more is
heard when the document is destroyed. -/
theorem run_silenced_firstListening :
    firstListening.isHandleHeld = true ∧ firstListening.awaited.map Prod.fst = [2] ∧
    (firstListening.step .dispose).1.provider.isDisposed = true ∧
    callsIn ((firstListening.step .dispose).1.run [.returns, .destroy 0]).2 ++
        ((firstListening.step .dispose).1.run [.returns, .destroy 0]).1.awaited =
      firstListening.awaited := by
  have hheld : firstListening.isHandleHeld = true := by decide
  obtain ⟨hdisposed, _, hcalls⟩ := run_silenced hheld [.returns, .destroy 0]
  exact ⟨hheld, by decide, hdisposed, hcalls⟩

/-- Disposing does not silence the provider at once. -/
theorem called_after_dispose :
    firstListening.isHandleHeld = true ∧
      (firstListening.step .dispose).1.provider.isDisposed = true ∧
      (callsIn ((firstListening.step .dispose).1.run [.returns]).2).map Prod.fst = [2] := by
  decide

end Configuration

end DiagnosticRelay
