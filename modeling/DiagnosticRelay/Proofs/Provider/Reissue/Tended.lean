import DiagnosticRelay.Proofs.Provider.Reissue.Owners
import DiagnosticRelay.Proofs.Provider.Reissue.Upkeep

/-!
# Flags while identities are handed out again

Along a run in which listeners only listen, moves are made while only compilers are being asked
(`onlyAsking_of_rest`), so every change leaves every identity standing as it may (`Upheld.change`).
Together with what documents and cycles keep by themselves this is `Tended`, which every such run
ends in (`tended_run`). Then an identity is flagged exactly if a live document of it is watched
(`Tended.isWatched_iff`).
-/

namespace DiagnosticRelay.Configuration

variable {rule : Configuration → Move → Bool} {c c' : Configuration} {shown : List Event}

/-! ## Changes that move no watch -/

/-- The piece of work on top goes on with others, none of which moves a watch. -/
theorem quiet_work (fs : List Frame) {f : Frame} {stack : List Frame} (hs : c.stack = f :: stack)
    (hf : f.watchId? = none) (hstack : c'.stack = fs ++ stack) (hfs : ∀ g ∈ fs, g.watchId? = none)
    (halive : c'.isAlive = true → c.isAlive = true)
    (hflags : c'.provider.tracker.isWatched = c.provider.tracker.isWatched)
    (hentries : c'.provider.watches = c.provider.watches)
    (hdisposed : c'.provider.isDisposed = c.provider.isDisposed)
    (hdocuments : c'.documents = c.documents) : Quiet c c' := by
  refine ⟨?_, halive, hflags, hentries, hdisposed, ?_, by rw [hdocuments]⟩
  · intro g hg
    rw [hs] at hg
    obtain rfl := Option.some.inj hg
    exact hf
  · intro g hg
    have hne : g ≠ f := by
      rintro rfl
      exact hg hf
    have hnot : g ∉ fs := fun hmem => hg (hfs g hmem)
    rw [hstack, hs, List.mem_append, List.mem_cons, or_iff_right hne, or_iff_right hnot]

/-- The callout or piece of work on top is over. -/
theorem quiet_popped {f : Frame} {stack : List Frame} (hs : c.stack = f :: stack)
    (hf : f.watchId? = none) (halive : (c.setStack stack).isAlive = true → c.isAlive = true) :
    Quiet c (c.setStack stack) :=
  quiet_work [] hs hf rfl (List.forall_mem_nil _) halive rfl rfl rfl rfl

/-- Flags and watches are as they should be. -/
structure Upheld (c : Configuration) : Prop where
  disposed : c.provider.isDisposed = true → ∀ id, c.provider.tracker.isWatched id = false
  standing : c.isAlive = true → ∀ id, c.Standing id

namespace Upheld

theorem quiet (h : c.Upheld) (hq : Quiet c c') : c'.Upheld where
  disposed := by
    rw [hq.disposed, hq.flags]
    exact h.disposed
  standing halive id := (h.standing (hq.alive halive) id).quietAt (hq.quietAt id)

/-- Nothing but watches has changed. -/
theorem moved (h : c.Upheld) (hflags : c'.provider.tracker.isWatched = c.provider.tracker.isWatched)
    (hdisposed : c'.provider.isDisposed = c.provider.isDisposed)
    (halive : c'.isAlive = true → c.isAlive = true)
    (hstanding : (∀ id, c.Standing id) → ∀ id, c'.Standing id) : c'.Upheld where
  disposed := by
    rw [hdisposed, hflags]
    exact h.disposed
  standing hlast := hstanding (h.standing (halive hlast))

/-- Before disposing nothing is said of what holds after it. -/
theorem undisposed (h : c.Upheld) (hdisposed : c'.provider.isDisposed = false)
    (halive : c'.isAlive = true → c.isAlive = true)
    (hstanding : (∀ id, c.Standing id) → ∀ id, c'.Standing id) : c'.Upheld where
  disposed hdisposed' := by cases hdisposed.symm.trans hdisposed'
  standing hlast := hstanding (h.standing (halive hlast))

/-- Nothing keeps the provider's state alive. -/
theorem dead (h : c.Upheld) (hflags : c'.provider.tracker.isWatched = c.provider.tracker.isWatched)
    (hdisposed : c'.provider.isDisposed = c.provider.isDisposed) (hdead : c'.isAlive = false) :
    c'.Upheld := by
  refine ⟨?_, fun halive => by cases hdead.symm.trans halive⟩
  rw [hdisposed, hflags]
  exact h.disposed

/-- Every change upholds them, if moves are made while only compilers are being asked. -/
theorem change (h : c.Upheld) (hchange : Change recycles c shown c')
    (hasking : c.advance = none → OnlyAsking c.stack) (hapart : LiveApart c.documents) :
    c'.Upheld := by
  have halive := isAlive_of_change hchange
  have outside {b : Configuration} (hc : c.advance = none) (hstack : b.stack = c.stack)
      (hlive : b.isAlive = true → c.isAlive = true)
      (hflags : b.provider.tracker.isWatched = c.provider.tracker.isWatched)
      (hentries : b.provider.watches = c.provider.watches)
      (hdisposed : b.provider.isDisposed = c.provider.isDisposed)
      (hdocuments : b.documents.map Document.watching = c.documents.map Document.watching) :
      b.Upheld :=
    h.quiet ⟨watchId?_of_rest hc, hlive, hflags, hentries, hdisposed, fun _ _ => by rw [hstack],
      hdocuments⟩
  cases hchange with
  | register channel hc => exact outside hc rfl halive rfl rfl rfl rfl
  | release id hc => exact outside hc rfl halive rfl rfl rfl rfl
  | skip => exact h
  | start hc => exact outside hc rfl halive rfl rfl rfl rfl
  | watch hc hhandle hd hdisposed hw hlive =>
    exact h.undisposed hdisposed halive fun hs => standing_watch hs (hasking hc) hd hw hlive
  | watchDestroyed hc hhandle hd hdisposed hw hdestroyed =>
    refine h.undisposed ?_ halive fun hs => standing_watchDestroyed hs (hasking hc) hw
    rw [isDisposed_forgetDocument]
    exact hdisposed
  | poll hc hm hcycle =>
    refine h.quiet ⟨watchId?_of_rest hc, halive, rfl, rfl, rfl, ?_, rfl⟩
    intro g hg
    refine List.mem_cons.trans (or_iff_right ?_)
    rintro rfl
    exact hg rfl
  | abandon place hc => exact outside hc rfl halive rfl rfl rfl rfl
  | openDocument d hc hm =>
    have hfreed : c.opensFreed (.openDocument d) = true := (Bool.and_eq_true_iff.mp hm).1
    have hwatches : d.watches = [] :=
      List.isEmpty_iff.mp (Bool.and_eq_true_iff.mp hfreed).1
    exact h.moved rfl rfl halive fun hs id =>
      standing_openDocument (hs id) hc (hasking hc) hwatches
  | destroy hc hm hd hlive =>
    exact h.moved rfl rfl halive fun hs => standing_destroy hs (hasking hc.rest) hapart hd hlive
  | edit i e hc =>
    refine outside hc rfl halive rfl rfl rfl ?_
    exact map_updateDocument c i Document.watching fun d => by cases e <;> rfl
  | focus i hc => exact outside hc rfl halive rfl rfl rfl rfl
  | dispose hc hm hhandle =>
    refine ⟨fun _ _ => rfl, fun _ => ?_⟩
    exact standing_disposed (h.standing (by simp [isAlive, hhandle])) (hasking hc)
  | dropHandle hc => exact outside hc rfl halive rfl rfl rfl rfl
  | returns hm hs => exact h.quiet (quiet_popped hs rfl halive)
  | busy hm hs =>
    exact h.quiet (quiet_work [] hs rfl rfl (List.forall_mem_nil _) halive rfl rfl rfl rfl)
  | discard hm hs => exact h.quiet (quiet_popped hs rfl halive)
  | @resume cycle place stack r d u hm hs =>
    obtain ⟨told, htold, hstack⟩ := exists_stack_publishSome
      ((c.setTracker (c.provider.tracker.invalidate cycle.id).2).setStack
        (.updating cycle u :: stack)) (.cycle cycle.number cycle.id)
      (c.provider.tracker.invalidate cycle.id).1
    refine h.quiet (quiet_work (told ++ [.updating cycle u]) hs rfl ?_ ?_ halive ?_ ?_ ?_ ?_)
    · rw [hstack, List.append_assoc]
      rfl
    · intro g hg
      rcases List.mem_append.mp hg with hg | hg
      · obtain ⟨_, _, rfl⟩ := htold g hg
        rfl
      · rw [List.mem_singleton.mp hg]
        rfl
    · rw [provider_publishSome]
      exact Tracker.isWatched_invalidate _ _
    · rw [provider_publishSome]
      rfl
    · rw [provider_publishSome]
      rfl
    · rw [documents_publishSome]
      rfl
  | hand hs =>
    exact h.quiet (quiet_work [.calling _ _, .delivering _ _] hs rfl rfl
      (by simp [Frame.watchId?]) halive rfl rfl rfl rfl)
  | handed hs => exact h.quiet (quiet_popped hs rfl halive)
  | update hs =>
    exact h.quiet (quiet_work [.delivering _ _, .recording _ _] hs rfl rfl
      (by simp [Frame.watchId?]) halive rfl rfl rfl rfl)
  | record hs =>
    exact h.quiet (quiet_work [.finishing _ _] hs rfl rfl (by simp [Frame.watchId?]) halive
      (Tracker.isWatched_record _ _ _) rfl rfl rfl)
  | leave hs =>
    exact h.quiet (quiet_work [.finishing _ _] hs rfl rfl (by simp [Frame.watchId?]) halive rfl rfl
      rfl rfl)
  | retract hs =>
    exact h.quiet (quiet_work [.delivering _ _, .finishing _ _] hs rfl rfl
      (by simp [Frame.watchId?]) halive rfl rfl rfl rfl)
  | finish hs => exact h.quiet (quiet_popped hs rfl halive)
  | letGo hs =>
    refine h.moved ?_ (isDisposed_releaseWatch _ _) halive fun hst => standing_letGo hst hs
    rw [tracker_releaseWatch]
    rfl
  | called hs => exact h.quiet (quiet_popped hs rfl halive)
  | @call w watches stack hs hbefore =>
    constructor
    · intro hdisposed id
      rw [isDisposed_forgetDocument] at hdisposed
      rw [isWatched_forgetDocument]
      split
      · rfl
      · exact h.disposed hdisposed id
    · exact fun hlast => standing_call (h.standing (halive hlast)) hs
  | miss hs hdead => exact h.dead rfl rfl hdead
  | @attach i id key stack hs hw =>
    obtain ⟨_, _, hattach, _⟩ := attach_of_isWatched (c.setStack stack) i id key hw
    refine h.moved ?_ ?_ halive fun hst => standing_attach hst hs hw
    · rw [hattach]
      exact congrArg Tracker.isWatched (tracker_releaseWatch (c.setStack stack) id)
    · rw [hattach]
      exact isDisposed_releaseWatch (c.setStack stack) id
  | detach hs hw => exact h.moved rfl rfl halive fun hst => standing_detach hst hs hw
  | reap hc hdead => exact h.dead rfl rfl hdead

end Upheld

/-- What holds at every moment of a run with identities that are handed out again. -/
structure Tended (c : Configuration) : Prop where
  asked : AskedOver OnlyAsking c.stack
  apart : LiveApart c.documents
  named : c.AllNamed
  upheld : c.Upheld

/-- Some live document of the identity is watched. -/
def IsInUse (c : Configuration) (id : DocumentId) : Prop :=
  ∃ (i : DocumentIndex) (d : Document), c.documents[i]? = some d ∧ d.id = id ∧
    d.isDestroyed = false ∧ d.watches ≠ []

/-- Where nobody is called, only compilers are being asked. -/
theorem onlyAsking_of_rest (h : AskedOver OnlyAsking c.stack) (hc : c.advance = none)
    (hcalling : ∀ listener notice, c.stack.head? ≠ some (.calling listener notice)) :
    OnlyAsking c.stack := by
  cases hs : c.stack with
  | nil => exact List.forall_mem_nil _
  | cons f stack =>
    rw [hs] at h hcalling
    have hcallout := (advance_eq_none_iff c).mp hc f (by rw [hs]; rfl)
    have hasking : f.isAsking = true := by
      cases f with
      | calling listener notice => exact absurd rfl (hcalling listener notice)
      | asking => rfl
      | _ => cases hcallout
    exact List.forall_mem_cons.mpr ⟨hasking, h.1 hasking⟩

/-- While a listener is called nobody does anything but let it return. -/
theorem head?_of_recycles {m : Move} (h : c.recycles m = true) (hm : m ≠ .returns)
    (listener : ListenerId) (notice : Notice) :
    c.stack.head? ≠ some (.calling listener notice) := by
  intro hhead
  obtain ⟨stack, hs⟩ := List.head?_eq_some_iff.mp hhead
  have hmove := (Bool.and_eq_true_iff.mp h).2
  rw [hs] at hmove
  cases m with
  | returns => exact hm rfl
  | _ => cases hmove

namespace Tended

/-- Documents and cycles take care of themselves. -/
theorem of_change (h : c.Tended) (hchange : Change recycles c shown c')
    (hasked : AskedOver OnlyAsking c'.stack) (hupheld : c'.Upheld) : c'.Tended where
  asked := hasked
  apart := liveApart_of_change h.apart hchange fun _ _ hm => (Bool.and_eq_true_iff.mp hm).1
  named := allNamed_of_change h.named hchange
  upheld := hupheld

theorem change (h : c.Tended) (hchange : Change recycles c shown c')
    (hasking : c.advance = none → OnlyAsking c.stack) : c'.Tended :=
  h.of_change hchange (askedOver_of_change h.asked hchange hasking)
    (h.upheld.change hchange hasking h.apart)

/-- A chain of changes that starts while only compilers are being asked. -/
theorem chain (h : c.Tended) (hchain : Chain recycles c shown c') (hasking : OnlyAsking c.stack) :
    c'.Tended := by
  cases hchain with
  | none => exact h
  | one hchange => exact h.change hchange fun _ => hasking
  | two hc hregister hchange =>
    exact (h.change hregister fun _ => hasking).change hchange fun _ => hasking

theorem pass (h : c.Tended) (hpass : Pass recycles c shown c') : c'.Tended := by
  cases hpass with
  | @move m hc hm =>
    by_cases hreturns : m = .returns
    · subst hreturns
      rw [begin]
      split
      · next hs =>
        have hchange := Change.returns hm hs
        refine h.of_change hchange ?_ (h.upheld.quiet (quiet_popped hs rfl
          (isAlive_of_change hchange)))
        have hasked := h.asked
        rw [hs] at hasked
        exact hasked.2
      · exact h
    · exact h.chain (chain_begin hc hm)
        (onlyAsking_of_rest h.asked hc.rest (head?_of_recycles hm hreturns))
  | work hwork =>
    refine h.change (change_advance hwork) fun hc => ?_
    cases hc.symm.trans hwork
  | reap hc =>
    cases halive : c.isAlive with
    | true =>
      rw [reap_of_isAlive halive]
      exact h
    | false =>
      rw [reap_of_not_isAlive halive]
      exact h.of_change (.reap hc halive) h.asked (h.upheld.dead rfl rfl halive)

/-- Between two pieces of work an identity is flagged exactly if it is in use. -/
theorem isWatched_iff (h : c.Tended) (halive : c.isAlive = true) (hc : c.advance = none)
    (id : DocumentId) : c.provider.tracker.isWatched id = true ↔ c.IsInUse id := by
  have hstanding := h.upheld.standing halive id
  constructor
  · intro hflag
    obtain ⟨i, d, key, hbears, hid⟩ := hstanding.of_isWatched hc hflag
    exact ⟨i, d, hbears.document, hid, hbears.live, by simp [hbears.watches]⟩
  · rintro ⟨i, d, hd, hid, _, hwatches⟩
    cases hstanding with
    | free hflag hbare => exact absurd (hbare i d hd hid) hwatches
    | kept hbears hid hflag => exact hflag
    | fresh hbears hid hflag => exact hflag
    | taken hid hbare hflag => exact hflag

end Tended

theorem tended_new (settings : Settings) {documents : List Document} (h : Recyclable documents) :
    (new settings documents).Tended where
  asked := trivial
  apart := h.apart
  named := ⟨List.forall_mem_nil _, fun _ _ hmem => absurd hmem List.not_mem_nil⟩
  upheld := by
    refine ⟨nofun, fun _ id => .free rfl ?_ ?_ ?_⟩
    · exact fun i d hd _ => h.watches d (List.mem_of_getElem? hd)
    · intro ref href
      cases href
    · exact fun _ _ _ => List.not_mem_nil

/-- Whatever has happened, a run with such documents is tended. -/
theorem tended_run {settings : Settings} {documents : List Document} {ms : List Move}
    (h : Recyclable documents) (hms : admits recycles (new settings documents) ms = true) :
    ((new settings documents).run ms).1.Tended :=
  run_invariant (P := fun c _ => c.Tended) (ready_new settings documents) hms
    (tended_new settings h) fun hc hpass => hc.pass hpass

end DiagnosticRelay.Configuration
