import DiagnosticRelay.Proofs.Ledger
import DiagnosticRelay.Proofs.Provider.Change
import DiagnosticRelay.Proofs.Spellings

/-!
# Overtaken updates

A cycle takes the recorded paths of its document back, publishes its update, and records the paths
of the update. A listener that is called in between may have another cycle of the document resume,
and that one records paths of its own. Then the first cycle finds these when its turn comes, and
overwrites them: no invalidation ever lists them.

This is the only way. A cycle finds paths recorded exactly if it was `Overtaken`, and paths leave
the tracker unannounced only there and when the provider is disposed of (`record_finds`).
-/

namespace DiagnosticRelay

/-- The frame has an update of a cycle to publish and to record, or only to record. -/
def Frame.IsUnderWay (cycle : Cycle) (u : Update) (f : Frame) : Prop :=
  f = .updating cycle u ∨ f = .recording cycle u

namespace Configuration

/-- An update with paths is recorded next, while another one for the same document waits above
`stack`. -/
def Overtakes (b : Configuration) (cycle : Cycle) (u : Update) (stack : List Frame) : Prop :=
  ∃ (other : Cycle) (v : Update) (above : List Frame) (f : Frame),
    b.stack = .recording other v :: (above ++ f :: stack) ∧ f.IsUnderWay cycle u ∧
      other.id = cycle.id ∧ b.provider.tracker.isWatched cycle.id = true ∧ v.paths ≠ []

/-- Another update was recorded while the update of a cycle waited above `stack`, and there have
been paths recorded for the document ever since. -/
def Overtaken (past : List (Configuration × List Event)) (cycle : Cycle) (u : Update)
    (stack : List Frame) : Prop :=
  ∃ before b shown between, past = before ++ (b, shown) :: between ∧ b.Overtakes cycle u stack ∧
    ∀ k ∈ between, (k.1.provider.tracker.recorded cycle.id).isSome = true

variable {rule : Configuration → Move → Bool} {c c' b : Configuration}
variable {shown : List Event}

/-- Updates are recorded by work only. -/
theorem not_recording_of_rest (hc : c.advance = none) {cycle : Cycle} {u : Update}
    {stack : List Frame} : c.stack ≠ .recording cycle u :: stack := by
  intro hs
  have hcallout := (advance_eq_none_iff c).mp hc (.recording cycle u) (by rw [hs]; rfl)
  cases hcallout

/-! ## What records nothing -/

/-- Nothing is recorded: paths are only taken back, updates wait where they waited, and paths that
leave the tracker are invalidated, unless the provider is disposed of. -/
structure RecordsNothing (c : Configuration) (shown : List Event) (c' : Configuration) : Prop where
  recorded : ∀ id, c'.provider.tracker.recorded id = c.provider.tracker.recorded id ∨
    c'.provider.tracker.recorded id = none
  place : ∀ above f stack cycle u, c'.stack = above ++ f :: stack → f.IsUnderWay cycle u →
    (∃ above' f', c.stack = above' ++ f' :: stack ∧ f'.IsUnderWay cycle u) ∨
      c'.provider.tracker.recorded cycle.id = none
  kept : ∀ cycle u stack, c'.stack = .recording cycle u :: stack →
    c'.provider.tracker.recorded = c.provider.tracker.recorded
  told : ∀ id p, p ∈ c.provider.trackedPaths id → p ∉ c'.provider.trackedPaths id →
    (∃ source i, .published source (.invalidation i) ∈ shown ∧ p ∈ i.paths) ∨
      (c'.provider.isDisposed = true ∧ c.provider.isDisposed = false)

/-- Below frames that have no update to record, updates wait where they waited. -/
theorem place_of_stack {fs stack above rest : List Frame} {f : Frame} {cycle : Cycle} {u : Update}
    (hfs : ∀ g ∈ fs, ¬ g.IsUnderWay cycle u) (h : fs ++ stack = above ++ f :: rest)
    (hf : f.IsUnderWay cycle u) : ∃ above', stack = above' ++ f :: rest := by
  rcases List.append_eq_append_iff.mp h with ⟨above', _, hstack⟩ | ⟨gs, hgs, hrest⟩
  · exact ⟨above', hstack⟩
  · cases gs with
    | nil => exact ⟨[], hrest.symm⟩
    | cons g gs =>
      obtain ⟨rfl, _⟩ := List.cons.inj hrest
      refine absurd hf (hfs f ?_)
      rw [hgs]
      exact List.mem_append_right above List.mem_cons_self

namespace RecordsNothing

/-- The tracker keeps its records, and frames without updates come and go. -/
theorem of_stack (fs gs : List Frame) {stack : List Frame} (hs : c.stack = gs ++ stack)
    (hstack : c'.stack = fs ++ stack) (hfs : ∀ f ∈ fs, ∀ cycle u, ¬ f.IsUnderWay cycle u)
    (hrecorded : c'.provider.tracker.recorded = c.provider.tracker.recorded) :
    RecordsNothing c shown c' where
  recorded := fun id => .inl (by rw [hrecorded])
  place := by
    intro above f rest cycle u h hf
    obtain ⟨above', habove⟩ :=
      place_of_stack (fun g hg => hfs g hg cycle u) (hstack.symm.trans h) hf
    refine .inl ⟨gs ++ above', f, ?_, hf⟩
    rw [hs, habove, List.append_assoc]
  kept := fun _ _ _ _ => hrecorded
  told := by
    intro id p hp hp'
    rw [Provider.trackedPaths, hrecorded] at hp'
    exact absurd hp hp'

/-- Neither the stack nor the tracker changes. -/
theorem still (hstack : c'.stack = c.stack)
    (hrecorded : c'.provider.tracker.recorded = c.provider.tracker.recorded) :
    RecordsNothing c shown c' :=
  .of_stack [] [] rfl hstack (List.forall_mem_nil _) hrecorded

/-- The callout or piece of work on top is over, and the tracker keeps its records. -/
theorem popped {f : Frame} {stack : List Frame} (hs : c.stack = f :: stack)
    (hstack : c'.stack = stack)
    (hrecorded : c'.provider.tracker.recorded = c.provider.tracker.recorded) :
    RecordsNothing c shown c' :=
  .of_stack [] [f] hs hstack (List.forall_mem_nil _) hrecorded

/-- Paths that are taken back are published. -/
theorem published_of_mem {t : Tracker} {id : DocumentId} {p : Path}
    (hp : p ∈ (t.recorded id).getD []) (source : Source) :
    ∃ source' i, .published source' (.invalidation i) ∈
      (b.publishSome source (t.invalidate id).1).2 ∧ p ∈ i.paths := by
  have hne : (t.recorded id).getD [] ≠ [] := List.ne_nil_of_mem hp
  rw [snd_publishSome, Tracker.invalidate_fst, if_neg hne]
  exact ⟨source, _, List.mem_cons_self, hp⟩

/-- The records of one document are taken back, and an invalidation is published. -/
theorem of_invalidate (x : DocumentId) (fs gs : List Frame) {source : Source} {stack : List Frame}
    (hs : c.stack = gs ++ stack) (hb : b.stack = fs ++ stack)
    (hfs : ∀ f ∈ fs, ∀ cycle u, f.IsUnderWay cycle u → cycle.id = x)
    (hhead : ∀ cycle u, b.stack.head? ≠ some (.recording cycle u))
    (hrecorded : ∀ id, b.provider.tracker.recorded id =
      if id = x then none else c.provider.tracker.recorded id) :
    RecordsNothing c (b.publishSome source (c.provider.tracker.invalidate x).1).2
      (b.publishSome source (c.provider.tracker.invalidate x).1).1 where
  recorded := by
    intro id
    rw [provider_publishSome, hrecorded]
    split
    · exact .inr rfl
    · exact .inl rfl
  place := by
    intro above f rest cycle u h hf
    rw [provider_publishSome, hrecorded]
    by_cases hid : cycle.id = x
    · exact .inr (if_pos hid)
    · obtain ⟨told, htold, hstack⟩ :=
        exists_stack_publishSome b source (c.provider.tracker.invalidate x).1
      rw [hstack, hb, ← List.append_assoc] at h
      have hnot : ∀ g ∈ told ++ fs, ¬ g.IsUnderWay cycle u := by
        intro g hg hway
        rcases List.mem_append.mp hg with hg | hg
        · obtain ⟨i, ids, rfl⟩ := htold g hg
          rcases hway with hway | hway
          · cases hway
          · cases hway
        · exact hid (hfs g hg cycle u hway)
      obtain ⟨above', habove⟩ := place_of_stack hnot h hf
      exact .inl ⟨gs ++ above', f, by rw [hs, habove, List.append_assoc], hf⟩
  kept := by
    intro cycle u stack h
    rw [stack_publishSome] at h
    cases ho : (c.provider.tracker.invalidate x).1 with
    | none =>
      rw [ho] at h
      exact absurd (congrArg List.head? h) (hhead cycle u)
    | some i =>
      rw [ho] at h
      cases (List.cons.inj h).1
  told := by
    intro id p hp hp'
    rw [provider_publishSome, Provider.trackedPaths, hrecorded] at hp'
    split at hp'
    · next hid =>
      subst hid
      exact .inl (published_of_mem hp source)
    · exact absurd hp hp'

theorem of_forgetDocument (fs gs : List Frame) {x : DocumentId} {stack : List Frame}
    (hs : c.stack = gs ++ stack) (hb : b.stack = fs ++ stack)
    (hfs : ∀ f ∈ fs, ∀ cycle u, ¬ f.IsUnderWay cycle u)
    (hrecorded : b.provider.tracker.recorded = c.provider.tracker.recorded) :
    RecordsNothing c (b.forgetDocument x).2 (b.forgetDocument x).1 := by
  have hforget : (b.provider.tracker.forget x).1 = (c.provider.tracker.invalidate x).1 := by
    rw [Tracker.forget_fst, Tracker.invalidate_fst, Tracker.invalidate_fst, hrecorded]
  have hstack : ((b.setTracker (b.provider.tracker.forget x).2).push (.forgetting x)).stack =
      (.forgetting x :: fs) ++ stack := by
    rw [stack_push, stack_setTracker, hb]
    rfl
  rw [forgetDocument_eq, hforget]
  refine .of_invalidate x _ gs hs hstack ?_ ?_ ?_
  · intro f hf cycle u hway
    rcases List.mem_cons.mp hf with rfl | hf
    · rcases hway with hway | hway
      · cases hway
      · cases hway
    · exact absurd hway (hfs f hf cycle u)
  · intro cycle u hhead
    cases hhead
  · intro id
    rw [← hrecorded]
    exact Tracker.recorded_forget b.provider.tracker x id

end RecordsNothing

/-- A change records nothing, or it records an update. -/
theorem Change.recordsNothing_or (h : Change rule c shown c') : RecordsNothing c shown c' ∨
    ∃ cycle u stack, c.stack = .recording cycle u :: stack ∧
      c.provider.tracker.isWatched cycle.id = true ∧
      c' = (c.setTracker (c.provider.tracker.record cycle.id u.paths)).setStack
        (.finishing cycle u.paths.length :: stack) := by
  cases h with
  | register => exact .inl (.still rfl rfl)
  | release => exact .inl (.still rfl rfl)
  | skip => exact .inl (.still rfl rfl)
  | start => exact .inl (.still rfl rfl)
  | watch =>
    refine .inl (.of_stack [.attaching _ _ _] [] rfl rfl ?_ rfl)
    simp [Frame.IsUnderWay]
  | watchDestroyed =>
    refine .inl (.of_forgetDocument [.attaching _ _ _] [] rfl rfl ?_ rfl)
    simp [Frame.IsUnderWay]
  | poll =>
    refine .inl (.of_stack [.asking _ _] [] rfl rfl ?_ rfl)
    simp [Frame.IsUnderWay]
  | abandon => exact .inl (.still rfl rfl)
  | openDocument => exact .inl (.still rfl rfl)
  | destroy =>
    refine .inl (.of_stack [.destroying _] [] rfl rfl ?_ rfl)
    simp [Frame.IsUnderWay]
  | edit => exact .inl (.still rfl rfl)
  | focus => exact .inl (.still rfl rfl)
  | dispose hc hm hhandle hopen =>
    refine .inl ⟨fun _ => .inr rfl, fun _ _ _ _ _ _ _ => .inr rfl, ?_,
      fun _ _ _ _ => .inr ⟨rfl, hopen⟩⟩
    exact fun _ _ _ hs => absurd hs (not_recording_of_rest hc)
  | dropHandle => exact .inl (.still rfl rfl)
  | returns hm hs => exact .inl (.popped hs rfl rfl)
  | busy hm hs => exact .inl (.popped hs rfl rfl)
  | discard hm hs => exact .inl (.popped hs rfl rfl)
  | @resume cycle place stack result d u hm hs =>
    refine .inl (.of_invalidate cycle.id [.updating cycle u] [_] hs rfl ?_ ?_ ?_)
    · intro f hf other v hway
      rw [List.mem_singleton.mp hf] at hway
      rcases hway with hway | hway
      · rw [(Frame.updating.inj hway).1]
      · cases hway
    · intro other v hhead
      cases hhead
    · exact fun id => Tracker.recorded_invalidate c.provider.tracker cycle.id id
  | hand hs =>
    refine .inl (.of_stack [.calling _ _, .delivering _ _] [_] hs rfl ?_ rfl)
    simp [Frame.IsUnderWay]
  | handed hs => exact .inl (.popped hs rfl rfl)
  | @update cycle u stack hs =>
    refine .inl ⟨fun _ => .inl rfl, ?_, fun _ _ _ _ => rfl, fun id p hp hp' => absurd hp hp'⟩
    intro above f rest other v h hf
    have h : [.delivering (.update u) (c.recipients (.update u))] ++ .recording cycle u :: stack =
        above ++ f :: rest := h
    obtain ⟨above', habove⟩ := place_of_stack (by simp [Frame.IsUnderWay]) h hf
    refine .inl ?_
    rw [hs]
    cases above' with
    | nil =>
      obtain ⟨rfl, rfl⟩ := List.cons.inj habove
      refine ⟨[], .updating cycle u, rfl, ?_⟩
      rcases hf with hf | hf
      · cases hf
      · obtain ⟨rfl, rfl⟩ := Frame.recording.inj hf
        exact .inl rfl
    | cons g above' =>
      obtain ⟨_, hstack⟩ := List.cons.inj habove
      exact ⟨.updating cycle u :: above', f, by rw [hstack]; rfl, hf⟩
  | record hs hw => exact .inr ⟨_, _, _, hs, hw, rfl⟩
  | leave hs =>
    refine .inl (.of_stack [.finishing _ _] [_] hs rfl ?_ rfl)
    simp [Frame.IsUnderWay]
  | retract hs =>
    refine .inl (.of_stack [.delivering _ _, .finishing _ _] [_] hs rfl ?_ rfl)
    simp [Frame.IsUnderWay]
  | finish hs => exact .inl (.popped hs rfl rfl)
  | letGo hs =>
    refine .inl (.popped hs (stack_releaseWatch _ _) ?_)
    rw [tracker_releaseWatch]
    rfl
  | called hs => exact .inl (.popped hs rfl rfl)
  | call hs =>
    refine .inl (.of_forgetDocument [.destroying _] [_] hs rfl ?_ rfl)
    simp [Frame.IsUnderWay]
  | miss hs =>
    refine .inl (.of_stack [.destroying _] [_] hs rfl ?_ rfl)
    simp [Frame.IsUnderWay]
  | @attach i x key stack hs hw =>
    obtain ⟨pending, n, hattach, _⟩ := attach_of_isWatched (c.setStack stack) i x key hw
    refine .inl (.popped hs (stack_attach _ _ _ _) ?_)
    rw [hattach]
    exact congrArg Tracker.recorded (tracker_releaseWatch _ _)
  | detach hs => exact .inl (.popped hs rfl rfl)
  | reap => exact .inl (.still rfl rfl)

/-- So does a pass. -/
theorem Pass.recordsNothing_or (h : Pass rule c shown c') : RecordsNothing c shown c' ∨
    ∃ cycle u stack, c.stack = .recording cycle u :: stack ∧
      c.provider.tracker.isWatched cycle.id = true ∧
      c' = (c.setTracker (c.provider.tracker.record cycle.id u.paths)).setStack
        (.finishing cycle u.paths.length :: stack) := by
  cases h.chain with
  | none => exact .inl (.still rfl rfl)
  | one h => exact h.recordsNothing_or
  | @two _ more l _ hc _ h =>
    rcases h.recordsNothing_or with hnothing | ⟨cycle, u, stack, hs, _⟩
    · refine .inl ⟨hnothing.recorded, hnothing.place, hnothing.kept, ?_⟩
      intro id p hp hp'
      refine (hnothing.told id p hp hp').imp_left ?_
      rintro ⟨source, i, hmem, hpath⟩
      exact ⟨source, i, List.mem_append_right _ hmem, hpath⟩
    · exact absurd hs (not_recording_of_rest hc)

/-- Where an update is recorded next, that is what the next pass does. -/
theorem Pass.stack_of_recording (h : Pass rule c shown c') {cycle : Cycle} {u : Update}
    {stack : List Frame} (hs : c.stack = .recording cycle u :: stack)
    (hw : c.provider.tracker.isWatched cycle.id = true) :
    c'.stack = .finishing cycle u.paths.length :: stack := by
  have hadvance : c.advance = some ((c.setStack stack).keepPaths cycle u) := by
    unfold advance
    rw [hs]
    rfl
  cases h with
  | move hc => cases hadvance.symm.trans hc.rest
  | work h =>
    have hkeep := Option.some.inj (hadvance.symm.trans h)
    rw [keepPaths, provider_setStack, if_pos hw] at hkeep
    rw [← (Prod.mk.inj hkeep).1]
    rfl
  | reap hc => cases hadvance.symm.trans hc

/-! ## Who finds paths recorded -/

variable {settings : Settings} {documents : List Document}
variable {past : List (Configuration × List Event)}

theorem Overtaken.snoc {cycle : Cycle} {u : Update} {stack : List Frame}
    (h : Overtaken past cycle u stack)
    (hc : (c.provider.tracker.recorded cycle.id).isSome = true) :
    Overtaken (past ++ [(c, shown)]) cycle u stack := by
  obtain ⟨before, b, shown', between, rfl, hb, hbetween⟩ := h
  refine ⟨before, b, shown', between ++ [(c, shown)], by simp, hb, ?_⟩
  intro k hk
  rcases List.mem_append.mp hk with hk | hk
  · exact hbetween k hk
  · rw [List.mem_singleton.mp hk]
    exact hc

/-- As long as an update has not been recorded, nothing is recorded for its document unless it was
overtaken. -/
theorem Course.recorded_or (h : Course rule (new settings documents) past c) :
    ∀ above f stack cycle u, c.stack = above ++ f :: stack → f.IsUnderWay cycle u →
      c.provider.tracker.recorded cycle.id = none ∨ Overtaken past cycle u stack := by
  -- on the course: an update that waits now has waited since its own invalidation, which left
  -- nothing recorded, so what is recorded now was recorded over it
  induction h with
  | nil => exact fun _ _ _ _ _ _ _ => .inl rfl
  | @snoc past c c' shown h hpass ih =>
    intro above f stack cycle u hs hf
    have hkeep (hsame : c'.provider.tracker.recorded cycle.id =
        c.provider.tracker.recorded cycle.id) {above' : List Frame} {f' : Frame}
        (hs' : c.stack = above' ++ f' :: stack) (hf' : f'.IsUnderWay cycle u) :
        c'.provider.tracker.recorded cycle.id = none ∨
          Overtaken (past ++ [(c, shown)]) cycle u stack := by
      rw [hsame]
      cases hr : c.provider.tracker.recorded cycle.id with
      | none => exact .inl rfl
      | some ps =>
        rcases ih above' f' stack cycle u hs' hf' with hnone | hovertaken
        · cases hnone.symm.trans hr
        · exact .inr (hovertaken.snoc (by rw [hr]; rfl))
    rcases hpass.recordsNothing_or with hnothing | ⟨other, v, rest, hrest, hw, rfl⟩
    · rcases hnothing.place above f stack cycle u hs hf with ⟨above', f', hs', hf'⟩ | hnone
      · rcases hnothing.recorded cycle.id with hsame | hnone
        · exact hkeep hsame hs' hf'
        · exact .inl hnone
      · exact .inl hnone
    · -- the update waits below the one that has just been recorded
      have hs : [.finishing other v.paths.length] ++ rest = above ++ f :: stack := hs
      obtain ⟨above', rfl⟩ := place_of_stack (by simp [Frame.IsUnderWay]) hs hf
      have hrecorded := Tracker.recorded_record c.provider.tracker other.id cycle.id v.paths
      by_cases hid : cycle.id = other.id
      · by_cases hv : v.paths = []
        · exact .inl (hrecorded.trans ((if_pos hid).trans (if_pos hv)))
        · refine .inr ⟨past, c, shown, [], rfl, ?_, List.forall_mem_nil _⟩
          exact ⟨other, v, above', f, hrest, hf, hid.symm, hid ▸ hw, hv⟩
      · have hs' : c.stack = (.recording other v :: above') ++ f :: stack := hrest
        exact hkeep (hrecorded.trans (if_neg hid)) hs' hf

/-- A cycle that was overtaken finds paths recorded. -/
theorem Course.recorded_of_overtaken (h : Course rule (new settings documents) past c)
    {cycle : Cycle} {u : Update} {stack : List Frame} (hs : c.stack = .recording cycle u :: stack)
    (hovertaken : Overtaken past cycle u stack) :
    (c.provider.tracker.recorded cycle.id).isSome = true := by
  obtain ⟨before, b, shown', between, hpast, hb, hbetween⟩ := hovertaken
  cases h with
  | nil =>
    exact absurd hpast.symm (List.append_ne_nil_of_right_ne_nil before (List.cons_ne_nil _ _))
  | @snoc past c₀ _ shown h hpass =>
    rcases hpass.recordsNothing_or with hnothing | ⟨_, _, _, _, _, rfl⟩
    · rcases append_singleton_cases hpast with ⟨rfl, rfl, heq⟩ | ⟨between', rfl, _⟩
      · obtain ⟨rfl, _⟩ := Prod.mk.inj heq
        obtain ⟨other, v, _, _, hrest, _, hid, hw, _⟩ := hb
        have hstack := hpass.stack_of_recording hrest (hid ▸ hw)
        cases (List.cons.inj (hs.symm.trans hstack)).1
      · rw [hnothing.kept cycle u stack hs]
        exact hbetween (c₀, shown) (List.mem_append_right _ List.mem_cons_self)
    · cases (List.cons.inj hs).1

/-- A cycle finds nothing recorded exactly if it was not overtaken; and paths leave the tracker
with an invalidation that lists them, unless the provider is disposed of or an overtaken cycle
overwrites them. -/
theorem record_finds (h : Course rule (new settings documents) past c)
    (hpass : Pass rule c shown c') :
    (∀ cycle u stack, c.stack = .recording cycle u :: stack →
      (c.provider.tracker.recorded cycle.id = none ↔ ¬ Overtaken past cycle u stack)) ∧
    ∀ id p, p ∈ c.provider.trackedPaths id → p ∉ c'.provider.trackedPaths id →
      (∃ source i, .published source (.invalidation i) ∈ shown ∧ p ∈ i.paths) ∨
      (c'.provider.isDisposed = true ∧ c.provider.isDisposed = false) ∨
      ∃ cycle u stack, c.stack = .recording cycle u :: stack ∧ cycle.id = id ∧
        Overtaken past cycle u stack := by
  have hfinds (cycle : Cycle) (u : Update) (stack : List Frame)
      (hs : c.stack = .recording cycle u :: stack) :
      c.provider.tracker.recorded cycle.id = none ∨ Overtaken past cycle u stack :=
    h.recorded_or [] (.recording cycle u) stack cycle u hs (.inr rfl)
  refine ⟨?_, ?_⟩
  · intro cycle u stack hs
    constructor
    · intro hnone hovertaken
      have hsome := h.recorded_of_overtaken hs hovertaken
      rw [hnone] at hsome
      cases hsome
    · exact (hfinds cycle u stack hs).resolve_right
  · intro id p hp hp'
    rcases hpass.recordsNothing_or with hnothing | ⟨cycle, u, stack, hs, _, rfl⟩
    · exact (hnothing.told id p hp hp').imp_right .inl
    · refine .inr (.inr ⟨cycle, u, stack, hs, ?_⟩)
      have hid : cycle.id = id := by
        by_cases hid : id = cycle.id
        · exact hid.symm
        · refine absurd ?_ hp'
          show p ∈ ((c.provider.tracker.record cycle.id u.paths).recorded id).getD []
          rw [Tracker.recorded_record, if_neg hid]
          exact hp
      refine ⟨hid, (hfinds cycle u stack hs).resolve_left ?_⟩
      intro hnone
      rw [← hid, Provider.trackedPaths, hnone] at hp
      exact absurd hp List.not_mem_nil

/-- A listener that is given an update polls another cycle of the document, which gets its result at
once. -/
def polledMidway : List Move :=
  [.listen .updates, .run 0, .run 0, .poll 0, answerIn "/src/b.h", .poll 0, answerIn "/src/c.h",
    .returns]

/-- The listener has returned to the first cycle, which records its update next. -/
def overtaken : Configuration :=
  let c := (((new .default [savedDocument]).run polledMidway).1.begin .returns).1
  c.setStack c.stack.tail

/-- The update of the first cycle. -/
def overtakenUpdate : Update :=
  .ofMessages [⟨"Clang", .warning, ⟨"/src/b.h"⟩, "unused", ⟨⟨0, 0⟩, ⟨0, 20⟩⟩⟩]

theorem stack_overtaken : overtaken.stack = [.recording ⟨0, 0, ⟨1⟩, true⟩ overtakenUpdate] := rfl

theorem exists_course_overtaken :
    ∃ past, Course (fun _ _ => true) (new .default [savedDocument]) past overtaken := by
  have hready := ready_new .default [savedDocument]
  obtain ⟨past, hpast, _⟩ : ∃ past, Course (fun _ _ => true) (new .default [savedDocument]) past
      ((new .default [savedDocument]).run polledMidway).1 ∧ _ := exists_course_run hready rfl
  have hmove := hpast.snoc (.move (m := .returns) (ready_run hready _) rfl)
  exact ⟨_, hmove.snoc (.work rfl)⟩

theorem pass_overtaken : Pass (fun _ _ => true) overtaken [] ((overtaken.setTracker
    (overtaken.provider.tracker.record ⟨1⟩ overtakenUpdate.paths)).setStack
      [.finishing ⟨0, 0, ⟨1⟩, true⟩ 1]) := .work rfl

/-- The paths of the second cycle are overwritten, and nothing is published. -/
theorem overwritten_unannounced :
    (∃ past, Course (fun _ _ => true) (new .default [savedDocument]) past overtaken) ∧
    overtaken.provider.tracker.isWatched ⟨1⟩ = true ∧
    overtaken.provider.tracker.recorded ⟨1⟩ = some [⟨"/src/c.h"⟩] ∧
    ∃ c', Pass (fun _ _ => true) overtaken [] c' ∧
      c'.provider.tracker.recorded ⟨1⟩ = some [⟨"/src/b.h"⟩] :=
  ⟨exists_course_overtaken, by decide, by decide, _, pass_overtaken, by decide⟩

theorem record_finds_overtaken :
    ∃ past, Course (fun _ _ => true) (new .default [savedDocument]) past overtaken ∧
      Overtaken past ⟨0, 0, ⟨1⟩, true⟩ overtakenUpdate [] := by
  obtain ⟨past, hpast⟩ := exists_course_overtaken
  have hfinds := (record_finds hpast pass_overtaken).1 _ _ _ stack_overtaken
  refine ⟨past, hpast, Classical.not_not.mp ?_⟩
  intro hnot
  exact absurd (hfinds.mpr hnot) (by decide)

end Configuration

end DiagnosticRelay
