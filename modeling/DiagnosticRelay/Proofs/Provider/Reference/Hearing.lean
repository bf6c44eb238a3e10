import DiagnosticRelay.Proofs.Provider.Reference.Following

/-!
# Listeners hear what the reference tells

The moves with which something occurs: the reference tells at once what the provider puts on its
stack to deliver. So the relation with the reference is kept by every step (`Follows.step`), and
along a run the two listeners hear the reference's notices in its order: all of them whenever none
of them is being called, and until the provider is disposed of the tracked paths are then the
reference's (`run_heard`).
-/

namespace DiagnosticRelay.Configuration

variable {c c' : Configuration} {id : DocumentId}
variable {es shown : List Event} {s : Reference} {told : List Notice}

/-! ## Publishing an invalidation -/

theorem owed_publishSome (h : Attending c.provider.listeners) (source : Source)
    (o : Option Invalidation) :
    (c.publishSome source o).1.owed = (o.map Notice.invalidation).toList ++ c.owed := by
  rw [owed_of_stack (stack_publishSome c source o)]
  cases o with
  | none => rfl
  | some i => simp [Frame.owed, h.recipients, owed]

theorem promised_publishSome (source : Source) (o : Option Invalidation) :
    (c.publishSome source o).1.promised id = c.promised id := by
  rw [promised_of_stack (stack_publishSome c source o)]
  cases o with
  | none => rfl
  | some i => simp [Frame.promised, promised]

theorem layered_publishSome (h : Layered c.stack) (source : Source) (o : Option Invalidation) :
    Layered (c.publishSome source o).1.stack := by
  rw [stack_publishSome]
  cases o with
  | none => exact h
  | some i => exact h.cons rfl rfl rfl

theorem heard_publishSome (source : Source) (o : Option Invalidation) :
    heard (c.publishSome source o).2 = [] := by
  rw [snd_publishSome]
  cases o <;> rfl

/-- The reference clears what the tracker takes back. -/
theorem cleared_eq {t : Tracker} (h : s.last id = (t.recorded id).getD []) :
    s.cleared id = ((t.invalidate id).1.map Notice.invalidation).toList := by
  rw [Reference.cleared, h, Tracker.invalidate_fst]
  split <;> rfl

namespace Follows

theorem last_eq (h : c.Follows es s told) (hasking : ∀ f ∈ c.stack, f.isAsking = true)
    (hopen : c.provider.isDisposed = false) (id : DocumentId) :
    s.last id = c.provider.trackedPaths id := by
  rw [h.last hopen id, promised, promised_of_isAsking hasking]
  rfl

theorem heard_eq (h : c.Follows es s told) (hasking : ∀ f ∈ c.stack, f.isAsking = true) :
    DiagnosticRelay.heard es = told := by
  rw [← h.heard, owed, owed_of_isAsking hasking, List.append_nil]

theorem attached (h : c.Follows es s told) : c.Attached :=
  h.coherent.attached (by simp [isAlive, h.handle])

/-! ## The moves with which something occurs -/

theorem dispose (h : c.Follows es s told) (hc : c.advance = none)
    (hasking : ∀ f ∈ c.stack, f.isAsking = true) :
    c.disposed.Follows (es ++ [.logged .disposed]) { s with isDisposed := true } told where
  coherent := h.coherent.dispose hc (by simp [isAlive, h.handle])
  handle := h.handle
  disposed := rfl
  attending := by
    intro hopen
    cases hopen
  layered := h.layered
  flagged := by
    intro id hid
    have hnone : c.disposed.promised id = none := promised_of_isAsking hasking
    rw [hnone] at hid
    cases hid
  heard := by
    rw [heard_append, ← h.heard, List.append_assoc]
    rfl
  last := by
    intro hopen
    cases hopen

/-- Messages are made for a live document. -/
theorem resume (h : c.Follows es s told) {cycle : Cycle} {place : Nat} {stack : List Frame}
    {u : Update} (hs : c.stack = .asking cycle place :: stack) (hu : Path.Distinct u.paths)
    (hopen : c.provider.isDisposed = false)
    (hw : c.provider.tracker.isWatched cycle.id = true) :
    (((c.setTracker (c.provider.tracker.invalidate cycle.id).2).setStack
      (.updating cycle u :: stack)).publishSome (.cycle cycle.number cycle.id)
        (c.provider.tracker.invalidate cycle.id).1).1.Follows
      (es ++ (((c.setTracker (c.provider.tracker.invalidate cycle.id).2).setStack
        (.updating cycle u :: stack)).publishSome (.cycle cycle.number cycle.id)
          (c.provider.tracker.invalidate cycle.id).1).2)
      (s.setLast cycle.id u.paths) (told ++ (s.cleared cycle.id ++ [.update u])) := by
  have hlayered := h.layered
  rw [hs] at hlayered
  have hbelow := hlayered.1 (.inl rfl)
  have hasking : ∀ f ∈ c.stack, f.isAsking = true := by
    rw [hs]
    exact List.forall_mem_cons.mpr ⟨rfl, hbelow⟩
  have hcoherent := h.coherent.resume hs hu
  generalize hb : (c.setTracker (c.provider.tracker.invalidate cycle.id).2).setStack
    (.updating cycle u :: stack) = b at hcoherent ⊢
  have hstack : b.stack = [.updating cycle u] ++ stack := by
    rw [← hb]
    rfl
  have hlisteners : Attending b.provider.listeners := by
    rw [← hb]
    exact h.attending hopen
  have hpromised (id : DocumentId) :
      b.promised id = if cycle.id = id then some u.paths else none := by
    rw [promised_of_stack hstack, promised_of_isAsking hbelow]
    simp [Frame.promised]
  constructor
  case coherent => exact hcoherent
  case handle =>
    rw [isHandleHeld_publishSome, ← hb]
    exact h.handle
  case disposed =>
    rw [provider_publishSome, ← hb]
    exact h.disposed
  case attending =>
    rw [provider_publishSome]
    exact fun _ => hlisteners
  case layered =>
    refine layered_publishSome ?_ _ _
    rw [hstack]
    exact ⟨fun _ => hbelow, rfl, hlayered.2.2⟩
  case flagged =>
    intro id hid
    rw [promised_publishSome, hpromised] at hid
    split at hid
    · next heq =>
      rw [provider_publishSome, ← hb, ← heq]
      exact (congrFun (Tracker.isWatched_invalidate _ _) _).trans hw
    · cases hid
  case heard =>
    rw [heard_append, heard_publishSome, List.append_nil, owed_publishSome hlisteners,
      owed_of_stack hstack, owed_of_isAsking hbelow, h.heard_eq hasking,
      cleared_eq (h.last_eq hasking hopen cycle.id)]
    rfl
  case last =>
    intro _ id
    rw [promised_publishSome, hpromised, provider_publishSome, Reference.last_setLast, ← hb]
    by_cases hid : id = cycle.id
    · rw [if_pos hid, if_pos hid.symm]
      rfl
    · rw [if_neg hid, if_neg (Ne.symm hid), h.last_eq hasking hopen id]
      show _ = ((c.provider.tracker.invalidate cycle.id).2.recorded id).getD []
      rw [Tracker.recorded_invalidate, if_neg hid]
      rfl

/-- A document that was watched is destroyed. -/
theorem forget (h : c.Follows es s told) (hasking : ∀ f ∈ c.stack, f.isAsking = true)
    (hopen : c.provider.isDisposed = false) {b : Configuration} {x : DocumentId}
    (hcoherent : (b.forgetDocument x).1.Coherent) (hstack : b.stack = .destroying [] :: c.stack)
    (hprovider : b.provider = c.provider) (hhandle : b.isHandleHeld = c.isHandleHeld) :
    (b.forgetDocument x).1.Follows (es ++ (b.forgetDocument x).2) (s.setLast x [])
      (told ++ s.cleared x) := by
  have hlisteners : Attending ((b.setTracker (b.provider.tracker.forget x).2).push
      (.forgetting x)).provider.listeners := by
    show Attending b.provider.listeners
    rw [hprovider]
    exact h.attending hopen
  have hstack' : ((b.setTracker (b.provider.tracker.forget x).2).push (.forgetting x)).stack =
      [.forgetting x, .destroying []] ++ c.stack := by
    rw [stack_push, stack_setTracker, hstack]
    rfl
  have hpromised (id : DocumentId) : (b.forgetDocument x).1.promised id = none := by
    rw [forgetDocument_eq, promised_publishSome, promised_of_stack hstack',
      promised_of_isAsking hasking]
    rfl
  constructor
  case coherent => exact hcoherent
  case handle =>
    rw [forgetDocument_eq, isHandleHeld_publishSome]
    exact hhandle.trans h.handle
  case disposed =>
    rw [isDisposed_forgetDocument, hprovider]
    exact h.disposed
  case attending =>
    rw [forgetDocument_eq, provider_publishSome]
    exact fun _ => hlisteners
  case layered =>
    rw [forgetDocument_eq]
    refine layered_publishSome ?_ _ _
    rw [hstack']
    exact (h.layered.cons rfl rfl rfl).cons rfl rfl rfl
  case flagged =>
    intro id hid
    rw [hpromised] at hid
    cases hid
  case heard =>
    rw [heard_append, forgetDocument_eq, heard_publishSome, List.append_nil,
      owed_publishSome hlisteners, owed_of_stack hstack', owed_of_isAsking hasking,
      h.heard_eq hasking, Tracker.forget_fst, cleared_eq (t := b.provider.tracker)]
    · simp [Frame.owed]
    · rw [hprovider]
      exact h.last_eq hasking hopen x
  case last =>
    intro _ id
    rw [hpromised, Reference.last_setLast, Provider.trackedPaths, recorded_forgetDocument]
    split
    · rfl
    · rw [hprovider, h.last_eq hasking hopen id]
      rfl

/-! ## Steps and runs -/

/-- Work up to the next callout takes the provider on, and leaves the reference where it is. -/
theorem settle (h : c.Follows es s told) :
    c.settle.1.reap.Follows (es ++ c.settle.2) s told := by
  have hsettled : c.settle.1.Follows (es ++ c.settle.2) s told :=
    settle_keeps (P := fun c es => c.Follows es s told)
      (fun hc hadvance => hc.change (change_advance hadvance)) h
  rw [reap_of_isAlive (by simp [isAlive, hsettled.handle])]
  exact hsettled

theorem begin_quiet (h : c.Follows es s told) (hc : c.Ready) {m : Move} (hm : c.quiet m = true) :
    (c.begin m).1.Follows (es ++ (c.begin m).2) s told :=
  (chain_begin hc hm).keeps (P := fun c es => c.Follows es s told) Follows.change h

theorem begin_dispose (h : c.Follows es s told) (hc : c.Ready)
    (hasking : ∀ f ∈ c.stack, f.isAsking = true) :
    (c.begin .dispose).1.Follows (es ++ (c.begin .dispose).2) (s.see (some .disposed)).1
      (told ++ (s.see (some .disposed)).2) := by
  cases hdisposed : c.provider.isDisposed with
  | true =>
    have hbegin : c.begin .dispose = (c, []) := by simp [begin, hdisposed]
    rw [hbegin, Reference.see_of_isDisposed (h.disposed.trans hdisposed), List.append_nil,
      List.append_nil]
    exact h
  | false =>
    have hbegin : c.begin .dispose = (c.disposed, [.logged .disposed]) := by
      simp only [begin, h.handle, hdisposed]
      rfl
    rw [hbegin, Reference.see, Reference.react_disposed (h.disposed.trans hdisposed),
      List.append_nil]
    exact h.dispose hc.rest hasking

/-- The answer of the compiler comes to nothing. -/
theorem discard (h : c.Follows es s told) {cycle : Cycle} {place : Nat} {stack : List Frame}
    (hs : c.stack = .asking cycle place :: stack) (r : Report) :
    (c.setStack stack).Follows (es ++ finished r) s told := by
  have hcoherent := h.coherent.done hs rfl (fun _ => by simp [isAlive, h.handle])
  exact h.popped hcoherent hs rfl rfl rfl rfl fun _ => rfl

/-- The compiler answers with a result. -/
theorem receive_result (h : c.Follows es s told) (hc : c.advance = none) {cycle : Cycle}
    {place : Nat} {stack : List Frame} (hs : c.stack = .asking cycle place :: stack)
    (r : CompileResult) :
    ((c.setStack stack).receive cycle (.result r)).1.Follows
      (es ++ ((c.setStack stack).receive cycle (.result r)).2)
      (s.see (c.occurrence (.answers (some (.result r))))).1
      (told ++ (s.see (c.occurrence (.answers (some (.result r))))).2) := by
  have hdiscard (report : Report) (hreceive : (c.setStack stack).receive cycle (.result r) =
      (c.setStack stack, finished report))
      (hsee : s.see (c.occurrence (.answers (some (.result r)))) = (s, [])) :
      ((c.setStack stack).receive cycle (.result r)).1.Follows
        (es ++ ((c.setStack stack).receive cycle (.result r)).2)
        (s.see (c.occurrence (.answers (some (.result r))))).1
        (told ++ (s.see (c.occurrence (.answers (some (.result r))))).2) := by
    rw [hreceive, hsee, List.append_nil]
    exact h.discard hs report
  have hbacked : c.Backed cycle := h.coherent.backed_of_head hs rfl
  obtain ⟨d, hd, hid⟩ := hbacked.document
  cases hdisposed : c.provider.isDisposed with
  | true =>
    exact hdiscard (.discarded cycle.id) (by simp [receive, hdisposed])
      (Reference.see_of_isDisposed (h.disposed.trans hdisposed) _)
  | false =>
    cases hdestroyed : d.isDestroyed with
    | true =>
      have hw : c.provider.tracker.isWatched cycle.id = false := by
        apply eq_false_of_ne_true
        intro hflag
        obtain ⟨_, _, _, hlive⟩ :=
          h.coherent.kept h.attached (watchId?_of_rest hc) hd (hid ▸ hflag)
        cases hlive.symm.trans hdestroyed
      exact hdiscard (.discarded cycle.id) (by simp [receive, hdisposed, hw])
        (by simp [occurrence, hs, hd, hdestroyed])
    | false =>
      have hw : c.provider.tracker.isWatched cycle.id = true := by
        rcases hbacked.state with hflag | hgone | hdisposed'
        · exact hflag
        · exact absurd (hid ▸ hgone) (h.coherent.not_isGone hd hdestroyed)
        · cases hdisposed.symm.trans hdisposed'
      cases hu : messagesOf r d.path d.lines with
      | error e =>
        exact hdiscard (.failed cycle.id (.build e))
          (by simp [receive, hdisposed, hw, hd, hu]) (by simp [occurrence, hs, hd, hdestroyed, hu])
      | ok u =>
        have hreceive : (c.setStack stack).receive cycle (.result r) =
            ((c.setTracker (c.provider.tracker.invalidate cycle.id).2).setStack
              (.updating cycle u :: stack)).publishSome (.cycle cycle.number cycle.id)
                (c.provider.tracker.invalidate cycle.id).1 := by
          simp only [receive, provider_setStack, documents_setStack, hdisposed, hw, hd, hu]
          rfl
        have hsome : c.occurrence (.answers (some (.result r))) = some (.resumed cycle.id u) := by
          simp [occurrence, hs, hd, hdestroyed, hu, hid]
        rw [hreceive, hsome, Reference.see, Reference.react_resumed (h.disposed.trans hdisposed)]
        exact h.resume hs (distinct_messagesOf hu) hdisposed hw

theorem begin_result (h : c.Follows es s told) (hc : c.Ready)
    (hasking : ∀ f ∈ c.stack, f.isAsking = true) (r : CompileResult) :
    (c.begin (.answers (some (.result r)))).1.Follows
      (es ++ (c.begin (.answers (some (.result r)))).2)
      (s.see (c.occurrence (.answers (some (.result r))))).1
      (told ++ (s.see (c.occurrence (.answers (some (.result r))))).2) := by
  cases hs : c.stack with
  | nil =>
    have hbegin : c.begin (.answers (some (.result r))) = (c, []) := by simp [begin, hs]
    have hnone : c.occurrence (.answers (some (.result r))) = none := by simp [occurrence, hs]
    rw [hbegin, hnone, Reference.see_none, List.append_nil, List.append_nil]
    exact h
  | cons f stack =>
    rw [hs] at hasking
    have hf := hasking f List.mem_cons_self
    cases f with
    | asking cycle place =>
      have hbegin : c.begin (.answers (some (.result r))) =
          (c.setStack stack).receive cycle (.result r) := by simp [begin, hs, setStack]
      rw [hbegin]
      exact h.receive_result hc.rest hs r
    | _ => cases hf

/-- The destruction of a document that is not watched is nothing to the reference. -/
theorem see_destroyed (h : c.Follows es s told) (hasking : ∀ f ∈ c.stack, f.isAsking = true)
    (hw : c.provider.tracker.isWatched id = false) : s.see (some (.destroyed id)) = (s, []) := by
  cases hdisposed : c.provider.isDisposed with
  | true => exact Reference.see_of_isDisposed (h.disposed.trans hdisposed) _
  | false =>
    have hlast : s.last id = [] := by
      rw [h.last_eq hasking hdisposed, Provider.trackedPaths, h.coherent.recorded_eq_none hw]
      rfl
    rw [Reference.see, Reference.react_destroyed (h.disposed.trans hdisposed),
      Reference.setLast_eq_self hlast, Reference.cleared, if_pos hlast]

/-- A watched document is destroyed, and its watch called. -/
theorem settle_destroy (h : c.Follows es s told) (hc : c.Ready)
    (hasking : ∀ f ∈ c.stack, f.isAsking = true) {i : DocumentIndex} {d : Document}
    (hd : c.documents[i]? = some d) (hlive : d.isDestroyed = false)
    (hw : c.provider.tracker.isWatched d.id = true) {b : Configuration}
    (hb : b = (c.updateDocument i Document.destroy).push (.destroying d.watches)) :
    b.settle.1.reap.Follows (es ++ b.settle.2) (s.see (some (.destroyed d.id))).1
      (told ++ (s.see (some (.destroyed d.id))).2) := by
  have hopen := h.coherent.isDisposed_of_isWatched hw
  have hcoherent := h.coherent.destroy hc hd hlive
  obtain ⟨key, _, hone, _⟩ := h.coherent.kept h.attached (watchId?_of_rest hc.rest) hd hw
  rw [hone] at hb hcoherent
  have hcall : b.advance = some (((c.updateDocument i Document.destroy).push
      (.destroying [])).forgetDocument d.id) := by
    rw [hb]
    refine if_pos ?_
    exact Bool.or_eq_true_iff.mpr (.inl (Bool.or_eq_true_iff.mpr (.inl h.handle)))
  rw [settle_of_advance hcall, Reference.see, Reference.react_destroyed (h.disposed.trans hopen),
    ← List.append_assoc]
  exact (h.forget hasking hopen (hcoherent.call rfl) rfl rfl rfl).settle

/-- A document is destroyed, and its watch called if there is one. -/
theorem step_destroy (h : c.Follows es s told) (hc : c.Ready)
    (hasking : ∀ f ∈ c.stack, f.isAsking = true) (i : DocumentIndex) :
    (c.step (.destroy i)).1.Follows (es ++ (c.step (.destroy i)).2)
      (s.see (c.occurrence (.destroy i))).1 (told ++ (s.see (c.occurrence (.destroy i))).2) := by
  have hstep (b : Configuration) (hb : c.begin (.destroy i) = (b, [])) :
      c.step (.destroy i) = (b.settle.1.reap, b.settle.2) := by
    simp only [step, hb]
    rfl
  have hnothing (ho : s.see (c.occurrence (.destroy i)) = (s, [])) (b : Configuration)
      (hb : c.begin (.destroy i) = (b, [])) (hfollows : b.Follows es s told) :
      (c.step (.destroy i)).1.Follows (es ++ (c.step (.destroy i)).2)
        (s.see (c.occurrence (.destroy i))).1
        (told ++ (s.see (c.occurrence (.destroy i))).2) := by
    rw [hstep b hb, ho, List.append_nil]
    exact hfollows.settle
  cases hd : c.documents[i]? with
  | none => exact hnothing (by simp [occurrence, hd]) c (by simp [begin, hd]) h
  | some d =>
    cases hlive : d.isDestroyed with
    | true =>
      exact hnothing (by simp [occurrence, hd, hlive]) c (by simp [begin, hd, hlive]) h
    | false =>
      have hbegin : c.begin (.destroy i) =
          ((c.updateDocument i Document.destroy).push (.destroying d.watches), []) := by
        simp [begin, hd, hlive]
      have hsome : c.occurrence (.destroy i) = some (.destroyed d.id) := by
        simp [occurrence, hd, hlive]
      -- nobody is told of a document without a watch; the reference must have nothing to clear then
      cases hw : c.provider.tracker.isWatched d.id with
      | false =>
        rw [h.coherent.watches_eq_nil hd hw] at hbegin
        have hcoherent := h.coherent.destroy hc hd hlive
        rw [h.coherent.watches_eq_nil hd hw] at hcoherent
        refine hnothing ?_ _ hbegin ?_
        · rw [hsome]
          exact h.see_destroyed hasking hw
        · have hfollows : ((c.updateDocument i Document.destroy).push (.destroying [])).Follows
              (es ++ []) s told := h.same hcoherent rfl rfl (fun hl => hl)
            (h.layered.cons rfl rfl rfl) (fun _ hflag => hflag) rfl rfl fun _ => rfl
          rw [List.append_nil] at hfollows
          exact hfollows
      | true =>
        rw [hstep _ hbegin, hsome]
        exact h.settle_destroy hc hasking hd hlive hw rfl

/-- Every step of a run with passive listeners takes the reference along. -/
theorem step (h : c.Follows es s told) (hc : c.Ready) {m : Move} (hm : c.passive m = true) :
    (c.step m).1.Follows (es ++ (c.step m).2) (s.see (c.occurrence m)).1
      (told ++ (s.see (c.occurrence m)).2) := by
  have hasking (hreturns : m ≠ .returns) : ∀ f ∈ c.stack, f.isAsking = true :=
    isAsking_of_rest h.layered hc.rest (head?_of_passive hm hreturns)
  have hsettle {s' : Reference} {told' : List Notice}
      (hbegin : (c.begin m).1.Follows (es ++ (c.begin m).2) s' told') :
      (c.step m).1.Follows (es ++ (c.step m).2) s' told' := by
    have hsettled := hbegin.settle
    rw [List.append_assoc] at hsettled
    exact hsettled
  have hquiet (hnone : c.occurrence m = none) (hm : c.quiet m = true) :
      (c.step m).1.Follows (es ++ (c.step m).2) (s.see (c.occurrence m)).1
        (told ++ (s.see (c.occurrence m)).2) := by
    rw [hnone, Reference.see_none, List.append_nil]
    exact hsettle (h.begin_quiet hc hm)
  cases m with
  | answers outcome =>
    cases outcome with
    | none => exact hquiet rfl (Bool.and_eq_true_iff.mpr ⟨hm, rfl⟩)
    | some outcome =>
      cases outcome with
      | result r => exact hsettle (h.begin_result hc (hasking (by simp)) r)
      | _ => exact hquiet rfl (Bool.and_eq_true_iff.mpr ⟨hm, rfl⟩)
  | destroy i => exact h.step_destroy hc (hasking (by simp)) i
  | dispose => exact hsettle (h.begin_dispose hc (hasking (by simp)))
  | _ => exact hquiet rfl (Bool.and_eq_true_iff.mpr ⟨hm, rfl⟩)

theorem run (h : c.Follows es s told) (hc : c.Ready) {ms : List Move}
    (hms : admits passive c ms = true) :
    (c.run ms).1.Follows (es ++ (c.run ms).2) (s.follow c ms).1 (told ++ (s.follow c ms).2) := by
  -- on the moves, from any configuration that follows: each step moves the reference on
  induction ms generalizing c es s told with
  | nil =>
    rw [run_nil, Reference.follow, List.append_nil, List.append_nil]
    exact h
  | cons m ms ih =>
    rw [admits_cons] at hms
    rw [run_cons, Reference.follow_cons, ← List.append_assoc, ← List.append_assoc]
    exact ih (h.step hc hms.1) (ready_step c m) hms.2

end Follows

theorem follows_attended (settings : Settings) {documents : List Document}
    (h : Unwatched documents) : (attended settings documents).Follows [] .start [] where
  coherent := by
    have hms : admits opensNew (new settings documents)
        [.listen .updates, .listen .invalidations] = true := rfl
    exact coherent_run h hms
  handle := rfl
  disposed := rfl
  attending := fun _ => ⟨rfl, rfl, Nat.le_refl 2⟩
  layered := trivial
  flagged := by
    intro id hid
    cases hid
  heard := rfl
  last := fun _ _ => rfl

/-- With passive listeners, and cycles and compilers interleaved in whatever way, the two listeners
that are there from the start hear what the reference tells. -/
theorem run_heard {settings : Settings} {documents : List Document} {ms : List Move}
    (h : Unwatched documents) (hms : admits passive (attended settings documents) ms = true) :
    heard ((attended settings documents).run ms).2 <+:
      (Reference.start.follow (attended settings documents) ms).2 ∧
    ((∀ listener notice, .calling listener notice ∉
        ((attended settings documents).run ms).1.stack) →
      heard ((attended settings documents).run ms).2 =
        (Reference.start.follow (attended settings documents) ms).2 ∧
      (((attended settings documents).run ms).1.provider.isDisposed = false →
        ∀ id, ((attended settings documents).run ms).1.provider.trackedPaths id =
          (Reference.start.follow (attended settings documents) ms).1.last id)) := by
  have hready : (attended settings documents).Ready := ready_run (ready_new settings documents) _
  have hfollows := (follows_attended settings h).run hready hms
  rw [List.nil_append, List.nil_append] at hfollows
  refine ⟨⟨_, hfollows.heard⟩, ?_⟩
  intro hcalling
  have hasking := isAsking_of_rest hfollows.layered (ready_run hready ms).rest
    fun listener notice hhead => hcalling listener notice (List.mem_of_head? hhead)
  exact ⟨hfollows.heard_eq hasking, fun hopen id => (hfollows.last_eq hasking hopen id).symm⟩

/-- Two cycles of a document resume in the other order, and then it is destroyed. -/
def inReverse : List Move :=
  [.run 0, .run 0, .poll 1, answerIn "/src/b.h", .returns, .poll 0, answerIn "/src/c.h", .returns,
    .returns, .destroy 0, .returns]

theorem run_heard_inReverse :
    Unwatched [savedDocument] ∧
    admits passive (attended .default [savedDocument]) inReverse = true ∧
    (heard ((attended .default [savedDocument]).run inReverse).2).length = 4 ∧
    heard ((attended .default [savedDocument]).run inReverse).2 =
      (Reference.start.follow (attended .default [savedDocument]) inReverse).2 ∧
    (((attended .default [savedDocument]).run inReverse).1.provider.isDisposed = false →
      ∀ id, ((attended .default [savedDocument]).run inReverse).1.provider.trackedPaths id =
        (Reference.start.follow (attended .default [savedDocument]) inReverse).1.last id) := by
  have hdocuments : Unwatched [savedDocument] := ⟨by decide, by decide⟩
  have hms : admits passive (attended .default [savedDocument]) inReverse = true := by decide
  have hidle : ((attended .default [savedDocument]).run inReverse).1.stack = [] :=
    List.isEmpty_iff.mp (by decide)
  refine ⟨hdocuments, hms, by decide, (run_heard hdocuments hms).2 ?_⟩
  intro listener notice hmem
  rw [hidle] at hmem
  exact absurd hmem List.not_mem_nil

end DiagnosticRelay.Configuration
