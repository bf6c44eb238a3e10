import DiagnosticRelay.Proofs.Provider.Failure
import DiagnosticRelay.Proofs.Provider.Reissue.Tended

/-!
# Results for destroyed documents

A result that arrives for a document destroyed in the meantime is meant to be dropped. What is asked
on its arrival is whether the identity is flagged, and that is so exactly if some live document of
the identity is watched. So the result is dropped unless the identity has been handed out again to a
document that is open and has been compiled (`answer_isDropped_iff`); then it is published and
recorded as if it were that document's (`stale_published`).
-/

namespace DiagnosticRelay.Configuration

variable {c : Configuration} {cycle : Cycle} {place : Nat} {stack : List Frame} {d : Document}
  {r : CompileResult} {u : Update}

/-- A result of which messages can be made is published, the recorded paths being cleared before. -/
theorem exists_published (hs : c.stack = .asking cycle place :: stack)
    (hopen : c.provider.isDisposed = false) (hw : c.provider.tracker.isWatched cycle.id = true)
    (hd : c.documents[cycle.document]? = some d) (hu : messagesOf r d.path d.lines = .ok u) :
    ∃ notice, .published (.cycle cycle.number cycle.id) notice ∈
      (c.step (.answers (some (.result r)))).2 := by
  by_cases hpaths : c.provider.trackedPaths cycle.id = []
  · have hbegin := begin_answers_ok hs hopen hw hd hu
    rw [if_pos hpaths] at hbegin
    have hadvance : (c.begin (.answers (some (.result r)))).1.advance =
        some ((((c.setStack stack).setTracker (c.provider.tracker.invalidate cycle.id).2).push
          (.recording cycle u)).publish (.cycle cycle.number cycle.id) (.update u)) := by
      rw [hbegin]
      rfl
    rw [step_eq_settle, settle_of_advance hadvance]
    exact ⟨.update u, List.mem_append_right _ List.mem_cons_self⟩
  · obtain ⟨more, hmore⟩ := published_answers hs hopen hw hd hu hpaths
    rw [hmore]
    exact ⟨_, List.mem_cons_self⟩

/-- The answer publishes nothing, and leaves all flags and recorded paths alone. -/
def IsDropped (c : Configuration) (outcome : Option Outcome) : Prop :=
  (∀ source notice, .published source notice ∉ (c.step (.answers outcome)).2) ∧
    (c.step (.answers outcome)).1.provider.tracker = c.provider.tracker

/-- The identity of the document at a place has been handed out again, to a document that is live
and watched. -/
def IsReissued (c : Configuration) (i : DocumentIndex) (id : DocumentId) : Prop :=
  ∃ (j : DocumentIndex) (e : Document), j ≠ i ∧ c.documents[j]? = some e ∧ e.id = id ∧
    e.isDestroyed = false ∧ e.watches ≠ []

theorem isReissued_iff (hd : c.documents[cycle.document]? = some d)
    (hdestroyed : d.isDestroyed = true) (id : DocumentId) :
    c.IsReissued cycle.document id ↔ c.IsInUse id := by
  constructor
  · rintro ⟨j, e, _, he⟩
    exact ⟨j, e, he⟩
  · rintro ⟨j, e, he, hid, hlive, hwatches⟩
    refine ⟨j, e, ?_, he, hid, hlive, hwatches⟩
    rintro rfl
    obtain rfl := Option.some.inj (hd.symm.trans he)
    cases hlive.symm.trans hdestroyed

@[simp] theorem tracker_reap (c : Configuration) :
    c.reap.provider.tracker = c.provider.tracker := by
  unfold reap
  split <;> rfl

/-- An answer for a document that has been destroyed is dropped, unless it is a result of which
messages are made and the identity has been handed out again. -/
theorem answer_isDropped_iff {settings : Settings} {documents : List Document} {ms : List Move}
    (hdocuments : Recyclable documents)
    (hms : admits recycles (new settings documents) ms = true)
    (hs : ((new settings documents).run ms).1.stack = .asking cycle place :: stack)
    (hd : ((new settings documents).run ms).1.documents[cycle.document]? = some d)
    (hdestroyed : d.isDestroyed = true) (outcome : Option Outcome) :
    ((new settings documents).run ms).1.IsDropped outcome ↔
      ¬ ∃ r u, outcome = some (.result r) ∧ messagesOf r d.path d.lines = .ok u ∧
        ((new settings documents).run ms).1.IsReissued cycle.document d.id := by
  have hfailsafe := run_failsafe settings documents ms
  have htended := tended_run hdocuments hms
  have hrest := advance_run (ready_new settings documents).rest ms
  generalize ((new settings documents).run ms).1 = c at hs hd hfailsafe htended hrest ⊢
  have hid : d.id = cycle.id := by
    obtain ⟨e, he, hid⟩ := htended.named.asked cycle place (by rw [hs]; exact List.mem_cons_self)
    obtain rfl := Option.some.inj (hd.symm.trans he)
    exact hid
  have halive : c.isAlive = true := by simp [isAlive, hs, Frame.keepsAlive]
  have hflag : c.provider.tracker.isWatched cycle.id = true ↔
      c.IsReissued cycle.document d.id := by
    rw [isReissued_iff hd hdestroyed, hid]
    exact htended.isWatched_iff halive hrest cycle.id
  constructor
  · rintro hdropped ⟨r, u, rfl, hu, hreissued⟩
    have hw := hflag.mpr hreissued
    have hopen : c.provider.isDisposed = false := by
      cases hdisposed : c.provider.isDisposed with
      | false => rfl
      | true => cases (htended.upheld.disposed hdisposed cycle.id).symm.trans hw
    obtain ⟨notice, hmem⟩ := exists_published hs hopen hw hd hu
    exact hdropped.1 _ notice hmem
  · intro hnot
    cases outcome with
    | none =>
      rw [IsDropped, hfailsafe.wait hs]
      exact ⟨fun _ _ => List.not_mem_nil, rfl⟩
    | some outcome =>
      rcases fruitless_or hd outcome with ⟨cause, hfruitless⟩ | ⟨r, u, rfl, hu, _, hw⟩
      · rw [IsDropped, (hfailsafe.answer hs hfruitless).2.1]
        exact ⟨by simp, tracker_reap _⟩
      · exact absurd ⟨r, u, rfl, hu, hflag.mp hw⟩ hnot

/-- Another document, opened under the identity of the first. -/
def namesake : Document := ⟨⟨1⟩, some ⟨"/src/b.m"⟩, "b.m", "source.objc", [20], false, []⟩

theorem recyclable_savedDocument : Recyclable [savedDocument] where
  apart := by
    intro i j d e hd he _ _ _
    have hi := (List.getElem?_eq_some_iff.mp hd).1
    have hj := (List.getElem?_eq_some_iff.mp he).1
    exact (Nat.lt_one_iff.mp hi).trans (Nat.lt_one_iff.mp hj).symm
  watches := by decide

/-- The document is destroyed before its cycle is polled, and its identity is given to another one,
which is compiled or not. -/
def destroyedBefore (reissued : List Move) : List Move :=
  [.listen .updates, .run 0, .destroy 0, .openDocument namesake] ++ reissued ++ [.poll 0]

/-- The result of the destroyed document is published, and recorded for the other one. -/
theorem stale_published :
    Recyclable [savedDocument] ∧
    admits recycles (new .default [savedDocument]) (destroyedBefore [.run 1]) = true ∧
    ((new .default [savedDocument]).run (destroyedBefore [.run 1])).1.stack =
      [.asking ⟨0, 0, ⟨1⟩, true⟩ 0] ∧
    ((new .default [savedDocument]).run (destroyedBefore [.run 1])).1.documents[0]? =
      some savedDocument.destroy ∧
    ((new .default [savedDocument]).run (destroyedBefore [.run 1])).1.provider.trackedPaths ⟨1⟩ =
      [] ∧
    (heard (((new .default [savedDocument]).run (destroyedBefore [.run 1])).1.run
      [answerIn "/src/a.h", .returns]).2).length = 1 ∧
    (((new .default [savedDocument]).run (destroyedBefore [.run 1])).1.run
      [answerIn "/src/a.h", .returns]).1.provider.trackedPaths ⟨1⟩ = [⟨"/src/a.h"⟩] :=
  ⟨recyclable_savedDocument, by decide, rfl, rfl, by decide, by decide, by decide⟩

theorem answer_isDropped_iff_uncompiled :
    Recyclable [savedDocument] ∧
    admits recycles (new .default [savedDocument]) (destroyedBefore []) = true ∧
    ((new .default [savedDocument]).run (destroyedBefore [])).1.IsDropped
      (some (.result ⟨true, [⟨2, ⟨⟨"/src/a.h"⟩, 0, 0⟩, none, "unused"⟩]⟩)) := by
  have hms : admits recycles (new .default [savedDocument]) (destroyedBefore []) = true := by decide
  have hs : ((new .default [savedDocument]).run (destroyedBefore [])).1.stack =
      [.asking ⟨0, 0, ⟨1⟩, true⟩ 0] := rfl
  have hd : ((new .default [savedDocument]).run (destroyedBefore [])).1.documents[0]? =
      some savedDocument.destroy := rfl
  have hbare : ∀ e ∈ ((new .default [savedDocument]).run (destroyedBefore [])).1.documents,
      e.watches = [] := by decide
  refine ⟨recyclable_savedDocument, hms, (answer_isDropped_iff recyclable_savedDocument hms hs hd
    rfl _).mpr ?_⟩
  rintro ⟨r, u, _, _, j, e, _, he, _, _, hwatches⟩
  exact hwatches (hbare e (List.mem_of_getElem? he))

end DiagnosticRelay.Configuration
