import DiagnosticRelay.Proofs.Provider.Watching.Ends
import DiagnosticRelay.Proofs.Provider.Watching.Release

/-!
# Flags, kept watches and watches on documents agree

Every change keeps a configuration coherent (`Coherent.change`), whatever listeners and the compiler
do while they are called, so every run does. When no work is in progress nothing is on its way
between the three places any more, and what is left of coherence is `Agreement`
(`run_agreement`).
-/

namespace DiagnosticRelay.Configuration

variable {rule : Configuration → Move → Bool} {c c' : Configuration}

namespace Coherent

/-- The piece of work on top goes on with others, none of which moves a watch. -/
theorem work (h : c.Coherent) (fs : List Frame) {f : Frame} {stack : List Frame}
    (hs : c.stack = f :: stack) (hf : f.watchId? = none) (hstack : c'.stack = fs ++ stack)
    (hfs : ∀ g ∈ fs, g.watchId? = none)
    (hupdates : ∀ g ∈ fs, ∀ u, g.update? = some u → Path.Distinct u.paths)
    (hcycles : ∀ g ∈ fs, ∀ cycle, g.cycle? = some cycle → f.cycle? = some cycle)
    (hpending : ∀ cycle ∈ c'.pending, cycle ∈ c.pending ∨ f.cycle? = some cycle)
    (halive : c'.isAlive = true → c.isAlive = true)
    (hflags : c'.provider.tracker.isWatched = c.provider.tracker.isWatched)
    (hentries : c'.provider.watches = c.provider.watches)
    (hdisposed : c'.provider.isDisposed = c.provider.isDisposed)
    (hdocuments : c'.documents = c.documents)
    (hrecorded : ∀ id ps, c'.provider.tracker.recorded id = some ps →
      c.provider.tracker.isWatched id = true ∧ ps ≠ [] ∧ Path.Distinct ps) : c'.Coherent := by
  have hbelow {g : Frame} (hg : g ∈ stack) : g ∈ c.stack := by
    rw [hs]
    exact List.mem_cons_of_mem f hg
  refine h.quiet ⟨?_, halive, hflags, hentries, hdisposed, ?_, ?_⟩ hrecorded ?_ ?_
  · intro g hg
    rw [hs] at hg
    obtain rfl := Option.some.inj hg
    exact hf
  · intro g hg
    have hne : g ≠ f := by
      rintro rfl
      exact hg hf
    have hnot : g ∉ fs := fun hmem => hg (hfs g hmem)
    rw [hstack, hs, List.mem_append, List.mem_cons, or_iff_right hne, or_iff_right hnot]
  · rw [hdocuments]
  · intro u hu
    rw [Configuration.updates, hstack] at hu
    obtain ⟨g, hg, hgu⟩ := List.mem_filterMap.mp hu
    rcases List.mem_append.mp hg with hg | hg
    · exact hupdates g hg u hgu
    · exact h.updates u (List.mem_filterMap.mpr ⟨g, hbelow hg, hgu⟩)
  · intro cycle hcycle
    rw [Configuration.cycles, hstack] at hcycle
    rcases List.mem_append.mp hcycle with hcycle | hcycle
    · rcases hpending cycle hcycle with hcycle | hcycle
      · exact h.cycles cycle (List.mem_append_left _ hcycle)
      · exact h.backed_of_head hs hcycle
    · obtain ⟨g, hg, hgc⟩ := List.mem_filterMap.mp hcycle
      rcases List.mem_append.mp hg with hg | hg
      · exact h.backed_of_head hs (hcycles g hg cycle hgc)
      · exact h.cycles cycle (List.mem_append_right _ (List.mem_filterMap.mpr ⟨g, hbelow hg, hgc⟩))

/-- The callout or piece of work on top is over, and leaves everything else as it was. -/
theorem done (h : c.Coherent) {f : Frame} {stack : List Frame} (hs : c.stack = f :: stack)
    (hf : f.watchId? = none) (halive : (c.setStack stack).isAlive = true → c.isAlive = true) :
    (c.setStack stack).Coherent :=
  h.work [] hs hf rfl (List.forall_mem_nil _) (List.forall_mem_nil _) (List.forall_mem_nil _)
    (fun _ hcycle => .inl hcycle) halive rfl rfl rfl rfl
    h.recorded

/-- Somebody else does something that moves no watch. -/
theorem outside (h : c.Coherent) (hc : c.advance = none) (hstack : c'.stack = c.stack)
    (hpending : ∀ cycle ∈ c'.pending, c.Backed cycle)
    (halive : c'.isAlive = true → c.isAlive = true)
    (htracker : c'.provider.tracker = c.provider.tracker)
    (hentries : c'.provider.watches = c.provider.watches)
    (hdisposed : c'.provider.isDisposed = c.provider.isDisposed)
    (hdocuments : c'.documents.map Document.watching = c.documents.map Document.watching) :
    c'.Coherent := by
  refine h.quiet ⟨watchId?_of_rest hc, halive, ?_, hentries, hdisposed, ?_, hdocuments⟩ ?_ ?_ ?_
  · rw [htracker]
  · intro g _
    rw [hstack]
  · rw [htracker]
    exact h.recorded
  · rw [Configuration.updates, hstack]
    exact h.updates
  · intro cycle hcycle
    rw [Configuration.cycles, hstack] at hcycle
    rcases List.mem_append.mp hcycle with hcycle | hcycle
    · exact hpending cycle hcycle
    · exact h.cycles cycle (List.mem_append_right _ hcycle)

/-- A pending cycle is polled. -/
theorem poll (h : c.Coherent) (hc : c.advance = none) {place : Nat} {cycle : Cycle}
    (hcycle : c.pending[place]? = some cycle) (halive : c.isAlive = true) :
    ({ c with pending := c.pending.eraseIdx place }.push
      (.asking { cycle with isStarted := true } place)).Coherent := by
  refine h.quiet ⟨watchId?_of_rest hc, fun _ => halive, rfl, rfl, rfl, ?_, rfl⟩ h.recorded
    h.updates ?_
  · intro g hg
    refine List.mem_cons.trans (or_iff_right ?_)
    rintro rfl
    exact hg rfl
  · intro other hother
    have hbacked := h.cycles cycle (List.mem_append_left _ (List.mem_of_getElem? hcycle))
    rcases List.mem_append.mp hother with hother | hother
    · exact h.cycles other (List.mem_append_left _ ((List.eraseIdx_sublist _ _).subset hother))
    · rcases List.mem_cons.mp hother with rfl | hother
      · exact ⟨hbacked.document, hbacked.state⟩
      · exact h.cycles other (List.mem_append_right _ hother)

/-- An answer takes the recorded paths back, and an update goes on to be published. -/
theorem resume (h : c.Coherent) {cycle : Cycle} {place : Nat} {stack : List Frame} {u : Update}
    (hs : c.stack = .asking cycle place :: stack) (hu : Path.Distinct u.paths) :
    (((c.setTracker (c.provider.tracker.invalidate cycle.id).2).setStack
      (.updating cycle u :: stack)).publishSome (.cycle cycle.number cycle.id)
        (c.provider.tracker.invalidate cycle.id).1).1.Coherent := by
  have halive : c.isAlive = true := by simp [isAlive, hs, Frame.keepsAlive]
  obtain ⟨told, htold, hstack⟩ := exists_stack_publishSome
    ((c.setTracker (c.provider.tracker.invalidate cycle.id).2).setStack
      (.updating cycle u :: stack)) (.cycle cycle.number cycle.id)
    (c.provider.tracker.invalidate cycle.id).1
  have hframes : ∀ g ∈ told ++ [.updating cycle u],
      (∃ i ids, g = .delivering (.invalidation i) ids) ∨ g = .updating cycle u := by
    intro g hg
    exact (List.mem_append.mp hg).imp (htold g) List.mem_singleton.mp
  refine h.work (told ++ [.updating cycle u]) hs rfl ?_ ?_ ?_ ?_ ?_ (fun _ => halive) ?_ ?_ ?_ ?_ ?_
  · rw [hstack, List.append_assoc]
    rfl
  · intro g hg
    rcases hframes g hg with ⟨i, ids, rfl⟩ | rfl
    · rfl
    · rfl
  · intro g hg v hv
    rcases hframes g hg with ⟨i, ids, rfl⟩ | rfl
    · cases hv
    · obtain rfl := Option.some.inj hv
      exact hu
  · intro g hg other hother
    rcases hframes g hg with ⟨i, ids, rfl⟩ | rfl
    · cases hother
    · exact hother
  · intro other hother
    rw [pending_publishSome] at hother
    exact .inl hother
  · rw [provider_publishSome]
    exact Tracker.isWatched_invalidate _ _
  · rw [provider_publishSome]
    rfl
  · rw [provider_publishSome]
    rfl
  · rw [documents_publishSome]
    rfl
  · intro id ps hps
    rw [provider_publishSome] at hps
    have hps : (c.provider.tracker.invalidate cycle.id).2.recorded id = some ps := hps
    rw [Tracker.recorded_invalidate] at hps
    split at hps
    · cases hps
    · exact h.recorded id ps hps

/-- The paths of an update are recorded. -/
theorem record (h : c.Coherent) {cycle : Cycle} {u : Update} {stack : List Frame}
    (hs : c.stack = .recording cycle u :: stack)
    (hw : c.provider.tracker.isWatched cycle.id = true) :
    ((c.setTracker (c.provider.tracker.record cycle.id u.paths)).setStack
      (.finishing cycle u.paths.length :: stack)).Coherent := by
  have halive : c.isAlive = true := by simp [isAlive, hs, Frame.keepsAlive]
  refine h.work [.finishing cycle u.paths.length] hs rfl rfl ?_ ?_ ?_
    (fun _ hcycle => .inl hcycle) (fun _ => halive) (Tracker.isWatched_record _ _ _) rfl rfl rfl ?_
  · intro g hg
    rw [List.mem_singleton.mp hg]
    rfl
  · intro g hg v hv
    rw [List.mem_singleton.mp hg] at hv
    cases hv
  · intro g hg other hother
    rw [List.mem_singleton.mp hg] at hother
    exact hother
  · intro id ps hps
    have hps : (c.provider.tracker.record cycle.id u.paths).recorded id = some ps := hps
    rw [Tracker.recorded_record] at hps
    split at hps
    · next hid =>
      split at hps
      · cases hps
      · next hne =>
        obtain rfl := Option.some.inj hps
        rw [hid]
        refine ⟨hw, ?_, Path.distinct_firstSpellings _⟩
        exact mt Path.firstSpellings_eq_nil_iff.mp hne
    · exact h.recorded id ps hps

/-- Every change keeps a configuration coherent. -/
theorem change (h : c.Coherent) {shown : List Event} (hchange : Change rule c shown c')
    (hrule : ∀ c m, rule c m = true → c.opensNew m = true) : c'.Coherent := by
  have halive := isAlive_of_change hchange
  have hwaiting : ∀ cycle ∈ c.pending, c.Backed cycle :=
    fun cycle hcycle => h.cycles cycle (List.mem_append_left _ hcycle)
  cases hchange with
  | register channel hc => exact h.outside hc rfl hwaiting halive rfl rfl rfl rfl
  | release id hc => exact h.outside hc rfl hwaiting halive rfl rfl rfl rfl
  | skip => exact h
  | start hc hhandle hd hdisposed hw =>
    refine h.outside hc rfl ?_ halive rfl rfl rfl rfl
    intro cycle hcycle
    rcases List.mem_append.mp hcycle with hcycle | hcycle
    · exact hwaiting cycle hcycle
    · rw [List.mem_singleton.mp hcycle]
      exact ⟨⟨_, hd, rfl⟩, .inl hw⟩
  | watch hc hhandle hd hdisposed hw hlive =>
    exact h.watch hc (by simp [isAlive, hhandle]) hdisposed hd hw hlive
  | watchDestroyed hc hhandle hd hdisposed hw hdestroyed =>
    exact h.watchDestroyed hc (by simp [isAlive, hhandle]) hd hdestroyed
  | poll hc hm hcycle => exact h.poll hc hcycle (halive (by simp [isAlive, push, Frame.keepsAlive]))
  | abandon place hc =>
    refine h.outside hc rfl ?_ halive rfl rfl rfl rfl
    intro cycle hcycle
    exact hwaiting cycle ((List.eraseIdx_sublist _ _).subset hcycle)
  | openDocument d hc hm =>
    have hnew := hrule _ _ hm
    simp only [opensNew, Bool.and_eq_true, List.isEmpty_iff, Bool.not_eq_true', List.any_eq_false,
      decide_eq_true_eq] at hnew
    exact h.openDocument hc hnew.1 hnew.2
  | destroy hc hm hd hlive => exact h.destroy hc hd hlive
  | edit i e hc =>
    refine h.outside hc rfl hwaiting halive rfl rfl rfl ?_
    exact map_updateDocument c i Document.watching fun d => by cases e <;> rfl
  | focus i hc => exact h.outside hc rfl hwaiting halive rfl rfl rfl rfl
  | dispose hc hm hhandle => exact h.dispose hc (by simp [isAlive, hhandle])
  | dropHandle hc => exact h.outside hc rfl hwaiting halive rfl rfl rfl rfl
  | returns hm hs => exact h.done hs rfl halive
  | busy hm hs =>
    refine h.work [] hs rfl rfl (List.forall_mem_nil _) (List.forall_mem_nil _)
      (List.forall_mem_nil _) ?_ halive rfl rfl rfl rfl h.recorded
    intro cycle hcycle
    rcases (List.mem_insertIdx (Nat.min_le_right _ _)).mp hcycle with rfl | hcycle
    · exact .inr rfl
    · exact .inl hcycle
  | discard hm hs => exact h.done hs rfl halive
  | resume hm hs hdisposed hw hd hu => exact h.resume hs (distinct_messagesOf hu)
  | hand hs =>
    refine h.work [.calling _ _, .delivering _ _] hs rfl rfl ?_ ?_ ?_
      (fun _ hcycle => .inl hcycle) halive rfl rfl rfl rfl h.recorded
    · simp [Frame.watchId?]
    · simp [Frame.update?]
    · simp [Frame.cycle?]
  | handed hs => exact h.done hs rfl halive
  | @update cycle u stack hs =>
    have hu : Path.Distinct u.paths := h.distinct_of_head hs rfl
    refine h.work [.delivering _ _, .recording cycle u] hs rfl rfl ?_ ?_ ?_
      (fun _ hcycle => .inl hcycle) halive rfl rfl rfl rfl h.recorded
    · simp [Frame.watchId?]
    · simpa [Frame.update?] using hu
    · simp [Frame.cycle?]
  | record hs hw => exact h.record hs hw
  | leave hs =>
    refine h.work [.finishing _ _] hs rfl rfl ?_ ?_ ?_
      (fun _ hcycle => .inl hcycle) halive rfl rfl rfl rfl h.recorded
    · simp [Frame.watchId?]
    · simp [Frame.update?]
    · simp [Frame.cycle?]
  | retract hs =>
    refine h.work [.delivering _ _, .finishing _ _] hs rfl rfl ?_ ?_ ?_
      (fun _ hcycle => .inl hcycle) halive rfl rfl rfl rfl h.recorded
    · simp [Frame.watchId?]
    · simp [Frame.update?]
    · simp [Frame.cycle?]
  | finish hs => exact h.done hs rfl halive
  | letGo hs => exact h.letGo hs
  | called hs => exact h.done hs rfl halive
  | call hs => exact h.call hs
  | miss hs hdead => cases hdead.symm.trans (h.not_miss hs)
  | attach hs hw => exact h.attach hs hw
  | detach hs hw => exact h.detach hs hw
  | reap hc hdead => exact h.reap hc hdead

end Coherent

theorem attachedAt_new (settings : Settings) {documents : List Document}
    (h : Unwatched documents) (id : DocumentId) : (new settings documents).AttachedAt id where
  flagged := by
    intro hw
    cases hw
  watched := by
    intro i d hd _ hne
    exact absurd (h.watches d (List.mem_of_getElem? hd)) hne
  entry := by
    intro ref hentry
    cases hentry
  forgetting hmem := absurd hmem List.not_mem_nil
  attaching i key := by
    constructor
    · exact fun hmem => absurd hmem List.not_mem_nil
    · intro hhead
      cases hhead
  destroying w ws hid := by
    refine ⟨List.not_mem_nil, ?_⟩
    intro hhead
    cases hhead

theorem coherent_new (settings : Settings) {documents : List Document}
    (h : Unwatched documents) : (new settings documents).Coherent where
  distinct := h.distinct
  recorded := by
    intro id ps hr
    cases hr
  disposed := by
    intro hdisposed
    cases hdisposed
  updates := List.forall_mem_nil _
  cycles := List.forall_mem_nil _
  held := .inr fun id => attachedAt_new settings h id

/-- What is to be found whenever no work is in progress. Flags and records are part of the
provider's state, and are gone with it once nothing keeps it alive. -/
structure Agreement (c : Configuration) : Prop where
  recorded : ∀ id ps, c.provider.tracker.recorded id = some ps →
    c.provider.tracker.isWatched id = true ∧ ps ≠ [] ∧ Path.Distinct ps
  flagged : c.isAlive = true → ∀ d ∈ c.documents,
    (c.provider.tracker.isWatched d.id = true ↔ (c.provider.watches d.id).isSome = true)
  kept : ∀ d ∈ c.documents,
    ((c.provider.watches d.id).isSome = true ↔ d.isDestroyed = false ∧ d.watches.length = 1)
  destroyed : ∀ d ∈ c.documents, d.isDestroyed = true →
    (c.isAlive = true → c.provider.tracker.isWatched d.id = false ∧
      c.provider.tracker.recorded d.id = none) ∧
    c.provider.watches d.id = none ∧ d.watches = []
  ended : c.provider.isDisposed = true ∨ (c.isHandleHeld = false ∧ c.pending = []) →
    ∀ d ∈ c.documents, d.watches = []

namespace Coherent

/-- With no work in progress a document is flagged, kept and watched, or nothing of the three. -/
theorem together (h : c.Coherent) (hidle : c.isIdle = true) (halive : c.isAlive = true)
    {d : Document} (hd : d ∈ c.documents) :
    (c.provider.tracker.isWatched d.id = true ∧ (c.provider.watches d.id).isSome = true ∧
      d.isDestroyed = false ∧ d.watches.length = 1) ∨
    (c.provider.tracker.isWatched d.id = false ∧ c.provider.watches d.id = none ∧
      d.watches = []) := by
  have ha := h.attached halive
  have hs : c.stack = [] := List.isEmpty_iff.mp hidle
  obtain ⟨i, hi⟩ := List.getElem?_of_mem hd
  cases hw : c.provider.tracker.isWatched d.id with
  | true =>
    have hhead : ∀ f, c.stack.head? = some f → f.watchId? = none := by
      rw [hs]
      intro f hf
      cases hf
    obtain ⟨key, hentry, hwatches, hlive⟩ := h.kept ha hhead hi hw
    exact .inl ⟨rfl, by rw [hentry]; rfl, hlive, by rw [hwatches]; rfl⟩
  | false =>
    refine .inr ⟨rfl, ?_, h.watches_eq_nil hi hw⟩
    cases hentry : c.provider.watches d.id with
    | none => rfl
    | some ref =>
      rcases ((ha d.id).entry ref hentry).1 with hflag | hmem
      · cases hw.symm.trans hflag
      · rw [hs] at hmem
        exact absurd hmem List.not_mem_nil

/-- Where a step can begin and nothing keeps the provider's state alive, no watch is left. -/
theorem watches_of_not_isAlive (h : c.Coherent) (hc : c.Ready) (hdead : c.isAlive = false)
    {d : Document} (hd : d ∈ c.documents) : c.provider.watches d.id = none ∧ d.watches = [] := by
  obtain ⟨i, hi⟩ := List.getElem?_of_mem hd
  have hreaped := hc.reaped
  rw [reap_of_not_isAlive hdead] at hreaped
  rcases h.held with hreaped | ha
  · exact ⟨hreaped.entry d.id, hreaped.watches i d hi⟩
  · -- the step before has taken every watch back already, so taking them back shows what is left
    rw [← hreaped] at hi ⊢
    exact ⟨rfl, h.watches_of_releaseWatches ha hc.rest hi⟩

theorem agreement (h : c.Coherent) (hidle : c.isIdle = true) (hc : c.Ready) : c.Agreement where
  recorded := h.recorded
  flagged := by
    intro halive d hd
    rcases h.together hidle halive hd with ⟨hw, hentry, _⟩ | ⟨hw, hentry, _⟩
    · exact iff_of_true hw hentry
    · simp [hw, hentry]
  kept := by
    intro d hd
    cases halive : c.isAlive with
    | true =>
      rcases h.together hidle halive hd with ⟨_, hentry, hlive, hone⟩ | ⟨_, hentry, hnone⟩
      · exact iff_of_true hentry ⟨hlive, hone⟩
      · simp [hentry, hnone]
    | false =>
      obtain ⟨hentry, hnone⟩ := h.watches_of_not_isAlive hc halive hd
      simp [hentry, hnone]
  destroyed := by
    intro d hd hdestroyed
    cases halive : c.isAlive with
    | true =>
      rcases h.together hidle halive hd with ⟨_, _, hlive, _⟩ | ⟨hw, hentry, hnone⟩
      · cases hlive.symm.trans hdestroyed
      · exact ⟨fun _ => ⟨hw, h.recorded_eq_none hw⟩, hentry, hnone⟩
    | false =>
      refine ⟨?_, h.watches_of_not_isAlive hc halive hd⟩
      intro halive'
      cases halive'
  ended := by
    intro hended d hd
    rcases hended with hdisposed | ⟨hhandle, hpending⟩
    · obtain ⟨i, hi⟩ := List.getElem?_of_mem hd
      exact h.watches_eq_nil hi (h.disposed hdisposed d.id)
    · have hs : c.stack = [] := List.isEmpty_iff.mp hidle
      have hdead : c.isAlive = false := by simp [isAlive, hhandle, hpending, hs]
      exact (h.watches_of_not_isAlive hc hdead hd).2

end Coherent

theorem coherent_run {settings : Settings} {documents : List Document} {ms : List Move}
    (h : Unwatched documents) (hms : admits opensNew (new settings documents) ms = true) :
    ((new settings documents).run ms).1.Coherent :=
  run_keeps (P := fun c _ => c.Coherent) (ready_new settings documents) hms
    (coherent_new settings h) fun hc hchange => hc.change hchange fun _ _ hm => hm

/-- With the moves made, the host is done with the provider: it has disposed of it, or it has
dropped its handle and no cycle is left. -/
inductive IsDone (c : Configuration) (ms : List Move) : Prop
  | disposed {before after : List Move} (hms : ms = before ++ .dispose :: after)
    (hhandle : .dropHandle ∉ before) : IsDone c ms
  | dropped (hms : .dropHandle ∈ ms) (hpending : c.pending = []) : IsDone c ms

/-- What the host has done can be seen from the provider. -/
theorem IsDone.ended {settings : Settings} {documents : List Document} {ms : List Move}
    (h : ((new settings documents).run ms).1.IsDone ms) :
    ((new settings documents).run ms).1.provider.isDisposed = true ∨
      (((new settings documents).run ms).1.isHandleHeld = false ∧
        ((new settings documents).run ms).1.pending = []) := by
  have hnew := ready_new settings documents
  cases h with
  | @disposed before after hms hhandle =>
    have hheld := (isHandleHeld_run hnew before).mpr ⟨rfl, hhandle⟩
    have hdisposed := isDisposed_step (ready_run hnew before) hheld
    refine .inl (Bool.not_eq_false _ ▸ fun hopen => ?_)
    rw [hms, run_append, run_cons] at hopen
    exact Bool.false_ne_true ((isDisposed_of_run (ready_step _ _) hopen).symm.trans hdisposed)
  | dropped hms hpending =>
    refine .inr ⟨Bool.eq_false_iff.mpr fun hheld => ?_, hpending⟩
    exact ((isHandleHeld_run hnew ms).mp hheld).2 hms

/-- However listeners and the compiler use the time in which they are called, once no work is in
progress flags, kept watches and watches on documents agree. When the host is done with the
provider, no watch is left on any document. -/
theorem run_agreement {settings : Settings} {documents : List Document} {ms : List Move}
    (h : Unwatched documents) (hms : admits opensNew (new settings documents) ms = true)
    (hidle : ((new settings documents).run ms).1.isIdle = true) :
    ((new settings documents).run ms).1.Agreement ∧
    (((new settings documents).run ms).1.IsDone ms →
      ∀ d ∈ ((new settings documents).run ms).1.documents, d.watches = []) := by
  have hready := ready_run (ready_new settings documents) ms
  have hagreement := (coherent_run h hms).agreement hidle hready
  exact ⟨hagreement, fun hdone => hagreement.ended hdone.ended⟩

/-- A listener destroys the document whose update it is given. -/
def destroyedMidway : List Move :=
  [.listen .updates, .run 0, .poll 0, answerIn "/src/b.h", .destroy 0, .returns]

/-- A listener disposes of the provider, and the handle is dropped afterwards. -/
def disposedMidway : List Move :=
  [.listen .updates, .run 0, .poll 0, answerIn "/src/b.h", .dispose, .returns, .dropHandle]

/-- The handle is dropped while a cycle is pending, which is abandoned then. -/
def droppedMidway : List Move := [.run 0, .dropHandle, .abandon 0]

theorem run_agreement_destroyedMidway :
    Unwatched [savedDocument] ∧
    admits opensNew (new .default [savedDocument]) destroyedMidway = true ∧
    ((new .default [savedDocument]).run destroyedMidway).1.isIdle = true ∧
    ((new .default [savedDocument]).run destroyedMidway).1.Agreement ∧
    (∀ d ∈ ((new .default [savedDocument]).run disposedMidway).1.documents, d.watches = []) ∧
    ∀ d ∈ ((new .default [savedDocument]).run droppedMidway).1.documents, d.watches = [] := by
  have hunwatched : Unwatched [savedDocument] := ⟨by decide, by decide⟩
  refine ⟨hunwatched, by decide, by decide, (run_agreement hunwatched (by decide) (by decide)).1,
    ?_, ?_⟩
  · have hdisposed : disposedMidway = [.listen .updates, .run 0, .poll 0, answerIn "/src/b.h"] ++
        .dispose :: [.returns, .dropHandle] := rfl
    exact (run_agreement hunwatched (by decide) (by decide)).2 (.disposed hdisposed (by decide))
  · exact (run_agreement hunwatched (by decide) (by decide)).2 (.dropped (by decide) (by decide))

end DiagnosticRelay.Configuration
