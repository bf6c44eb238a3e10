import DiagnosticRelay.Proofs.Ledger
import DiagnosticRelay.Proofs.Provider.Watching.Agreement

/-!
# Every message is cleared

The notices published for a document by its cycles and by its destruction make a ledger
(`noticesOf`). The record of the paths is taken before an update is published and written after
it, and in between listeners run that may destroy the document; so what is due is now in the
tracker, now with the cycle that is about to record it. `Account` says where it is at every
moment. It is kept as long as cycles of one document take turns: none resumes with a result while
an update of another one is under way (`takesTurns`).
-/

namespace DiagnosticRelay

/-- The identity in whose name something is published. -/
def Source.id : Source → DocumentId
  | .cycle _ id | .destruction id => id

/-- The notices that were published for an identity, in order. -/
def noticesOf (id : DocumentId) (es : List Event) : List Notice :=
  es.filterMap fun
    | .published source notice => if source.id = id then some notice else none
    | _ => none

@[simp] theorem noticesOf_nil (id : DocumentId) : noticesOf id [] = [] := rfl

@[simp] theorem noticesOf_append (id : DocumentId) (es es' : List Event) :
    noticesOf id (es ++ es') = noticesOf id es ++ noticesOf id es' := by
  simp [noticesOf]

@[simp] theorem noticesOf_published (id : DocumentId) (source : Source) (notice : Notice) :
    noticesOf id [.published source notice] = if source.id = id then [notice] else [] := by
  by_cases h : source.id = id <;> simp [noticesOf, h]

/-- Whether the frame is about to publish or to record an update for an identity. -/
def Frame.isPublishing (id : DocumentId) : Frame → Bool
  | .updating cycle _ | .recording cycle _ => cycle.id = id
  | _ => false

theorem Frame.isPublishing_updating (cycle : Cycle) (u : Update) :
    (Frame.updating cycle u).isPublishing cycle.id = true := decide_eq_true rfl

theorem Frame.isPublishing_recording (cycle : Cycle) (u : Update) :
    (Frame.recording cycle u).isPublishing cycle.id = true := decide_eq_true rfl

namespace Configuration

/-- Documents are opened under identities of their own, the provider is not disposed of, and no
cycle resumes with a result while an update of another cycle of its document is under way. -/
def takesTurns (c : Configuration) (m : Move) : Bool :=
  c.opensNew m &&
    match m, c.stack with
    | .dispose, _ => false
    | .answers (some (.result _)), .asking cycle _ :: stack =>
      ! stack.any (Frame.isPublishing cycle.id)
    | _, _ => true

/-- The updates under way for an identity, innermost first. -/
def publishing (c : Configuration) (id : DocumentId) : List Frame :=
  c.stack.filter (Frame.isPublishing id)

/-- Where the paths that are due for an identity are to be found. -/
inductive Account (c : Configuration) (id : DocumentId) (last due : List Path) : Prop
  /-- In the tracker; and for a live document they are those of the last update. -/
  | resting (hframes : c.publishing id = []) (hdue : due = c.provider.trackedPaths id)
    (hlive : ¬ c.IsGone id → due = last)
  /-- Nowhere; an update is published next. -/
  | announcing {cycle : Cycle} {u : Update} (hframes : c.publishing id = [.updating cycle u])
    (hdue : due = []) (hnone : c.provider.tracker.recorded id = none)
  /-- With the cycle that published them. -/
  | keeping {cycle : Cycle} {u : Update} (hframes : c.publishing id = [.recording cycle u])
    (hdue : due = u.paths) (hlast : last = u.paths) (hnone : c.provider.tracker.recorded id = none)

/-- What holds at every moment of a run in which cycles take turns. -/
structure Solvent (c : Configuration) (es : List Event) : Prop where
  coherent : c.Coherent
  open' : c.provider.isDisposed = false
  account : ∀ id, ∃ last due, Balanced (noticesOf id es) last due ∧ c.Account id last due

variable {rule : Configuration → Move → Bool} {c c' : Configuration} {id : DocumentId}
variable {last due : List Path}

theorem isGone_releaseWatch (x : DocumentId) (h : c.IsGone id) : (c.releaseWatch x).IsGone id := by
  unfold releaseWatch
  split
  · exact h
  · exact isGone_updateDocument (c := c) (fun _ => rfl) (fun _ h => h) h

/-- A document that is gone stays gone. -/
theorem isGone_of_change {shown : List Event} (hchange : Change rule c shown c')
    (h : c.IsGone id) : c'.IsGone id := by
  cases hchange with
  | watch => exact isGone_updateDocument (c := c) (fun _ => rfl) (fun _ h => h) h
  | watchDestroyed => exact isGone_of_documents (documents_forgetDocument _ _).symm h
  | openDocument d => exact isGone_openDocument h
  | destroy => exact isGone_updateDocument (c := c) (fun _ => rfl) (fun _ _ => rfl) h
  | edit i e =>
    exact isGone_updateDocument (c := c) (fun d => by cases e <;> rfl)
      (fun d h => by cases e <;> exact h) h
  | dispose => exact isGone_releaseWatches h
  | resume => exact isGone_of_documents (documents_publishSome _ _ _).symm h
  | letGo => exact isGone_releaseWatch _ h
  | call => exact isGone_of_documents (documents_forgetDocument _ _).symm h
  | @attach i x key stack hs hw =>
    obtain ⟨pending, n, hattach, _⟩ :=
      attach_of_isWatched (c.setStack stack) i x key hw
    refine isGone_of_documents (c := (c.setStack stack).releaseWatch x) ?_
      (isGone_releaseWatch x h)
    rw [hattach]
  | reap => exact isGone_releaseWatches h
  | _ => exact h

/-! ## What leaves an account as it is -/

theorem trackedPaths_eq_nil (h : c.provider.tracker.recorded id = none) :
    c.provider.trackedPaths id = [] := by
  rw [Provider.trackedPaths, h]
  rfl

theorem Account.same (h : c.Account id last due) (hframes : c'.publishing id = c.publishing id)
    (hrecorded : c'.provider.tracker.recorded id = c.provider.tracker.recorded id)
    (hgone : c.IsGone id → c'.IsGone id) : c'.Account id last due := by
  cases h with
  | resting hframes' hdue hlive =>
    refine .resting (hframes.trans hframes') ?_ fun hnot => hlive fun hid => hnot (hgone hid)
    rw [hdue, Provider.trackedPaths, Provider.trackedPaths, hrecorded]
  | announcing hframes' hdue hnone =>
    exact .announcing (hframes.trans hframes') hdue (hrecorded.trans hnone)
  | keeping hframes' hdue hlast hnone =>
    exact .keeping (hframes.trans hframes') hdue hlast (hrecorded.trans hnone)

theorem Account.of_publishing_eq_nil (h : c.Account id last due) (hframes : c.publishing id = []) :
    due = c.provider.trackedPaths id := by
  cases h with
  | resting _ hdue _ => exact hdue
  | announcing hframes' => cases hframes.symm.trans hframes'
  | keeping hframes' => cases hframes.symm.trans hframes'

theorem Account.of_updating {cycle : Cycle} {u : Update} {stack : List Frame}
    (h : c.Account cycle.id last due) (hs : c.stack = .updating cycle u :: stack) :
    stack.filter (Frame.isPublishing cycle.id) = [] ∧ due = [] ∧
      c.provider.tracker.recorded cycle.id = none := by
  have hframes : c.publishing cycle.id =
      .updating cycle u :: stack.filter (Frame.isPublishing cycle.id) := by
    rw [publishing, hs]
    exact List.filter_cons_of_pos (Frame.isPublishing_updating cycle u)
  cases h with
  | resting hframes' => cases hframes.symm.trans hframes'
  | announcing hframes' hdue hnone =>
    exact ⟨(List.cons.inj (hframes.symm.trans hframes')).2, hdue, hnone⟩
  | keeping hframes' => cases (List.cons.inj (hframes.symm.trans hframes')).1

theorem Account.of_recording {cycle : Cycle} {u : Update} {stack : List Frame}
    (h : c.Account cycle.id last due) (hs : c.stack = .recording cycle u :: stack) :
    stack.filter (Frame.isPublishing cycle.id) = [] ∧ due = u.paths ∧ last = u.paths ∧
      c.provider.tracker.recorded cycle.id = none := by
  have hframes : c.publishing cycle.id =
      .recording cycle u :: stack.filter (Frame.isPublishing cycle.id) := by
    rw [publishing, hs]
    exact List.filter_cons_of_pos (Frame.isPublishing_recording cycle u)
  cases h with
  | resting hframes' => cases hframes.symm.trans hframes'
  | announcing hframes' => cases (List.cons.inj (hframes.symm.trans hframes')).1
  | keeping hframes' hdue hlast hnone =>
    obtain ⟨hframe, hbelow⟩ := List.cons.inj (hframes.symm.trans hframes')
    obtain ⟨rfl, rfl⟩ := Frame.recording.inj hframe
    exact ⟨hbelow, hdue, hlast, hnone⟩

theorem publishing_of_stack (fs : List Frame) {f : Frame} {stack : List Frame}
    (hs : c.stack = f :: stack) (hstack : c'.stack = fs ++ stack) (hf : f.isPublishing id = false)
    (hfs : ∀ g ∈ fs, g.isPublishing id = false) : c'.publishing id = c.publishing id := by
  have hnone : fs.filter (Frame.isPublishing id) = [] := by
    apply List.filter_eq_nil_iff.mpr
    intro g hg
    simp [hfs g hg]
  rw [publishing, publishing, hs, hstack, List.filter_append, hnone, List.filter_cons, hf]
  rfl

theorem publishing_forgetDocument (b : Configuration) (x id : DocumentId) :
    (b.forgetDocument x).1.publishing id = b.publishing id := by
  obtain ⟨told, htold, hstack⟩ := stack_forgetDocument b x
  have hnone : told.filter (Frame.isPublishing id) = [] := by
    apply List.filter_eq_nil_iff.mpr
    intro f hf
    obtain ⟨i, ids, rfl⟩ := htold f hf
    exact Bool.false_ne_true
  rw [publishing, publishing, hstack, List.filter_append, hnone]
  rfl

theorem noticesOf_publishSome (b : Configuration) (source : Source) (t : Tracker)
    (x : DocumentId) : noticesOf id (b.publishSome source (t.invalidate x).1).2 =
      if source.id = id then
        if (t.recorded x).getD [] = [] then [] else [.invalidation ⟨(t.recorded x).getD []⟩]
      else [] := by
  rw [snd_publishSome, Tracker.invalidate_fst]
  by_cases hpaths : (t.recorded x).getD [] = []
  · simp [hpaths]
  · simp [hpaths]

theorem noticesOf_forgetDocument (b : Configuration) (x id : DocumentId) :
    noticesOf id (b.forgetDocument x).2 =
      if x = id then
        if b.provider.trackedPaths x = [] then [] else [.invalidation ⟨b.provider.trackedPaths x⟩]
      else [] := noticesOf_publishSome _ (.destruction x) b.provider.tracker x

variable {es shown : List Event}

namespace Solvent

/-- A change that is about one identity. -/
theorem turn (h : c.Solvent es) (x : DocumentId) (hcoherent : c'.Coherent)
    (hdisposed : c'.provider.isDisposed = c.provider.isDisposed)
    (hgone : ∀ id, c.IsGone id → c'.IsGone id)
    (hnotices : ∀ id, id ≠ x → noticesOf id shown = [])
    (hframes : ∀ id, id ≠ x → c'.publishing id = c.publishing id)
    (hrecorded : ∀ id, id ≠ x →
      c'.provider.tracker.recorded id = c.provider.tracker.recorded id)
    (hself : ∀ last due, Balanced (noticesOf x es) last due → c.Account x last due →
      ∃ last' due', Balanced (noticesOf x es ++ noticesOf x shown) last' due' ∧
        c'.Account x last' due') : c'.Solvent (es ++ shown) where
  coherent := hcoherent
  open' := hdisposed.trans h.open'
  account := by
    intro id
    obtain ⟨last, due, hbalanced, haccount⟩ := h.account id
    rw [noticesOf_append]
    by_cases hid : id = x
    · subst hid
      exact hself last due hbalanced haccount
    · refine ⟨last, due, ?_, haccount.same (hframes id hid) (hrecorded id hid) (hgone id)⟩
      rw [hnotices id hid, List.append_nil]
      exact hbalanced

/-- A change that is about no identity. -/
theorem idle (h : c.Solvent es) (hcoherent : c'.Coherent)
    (hdisposed : c'.provider.isDisposed = c.provider.isDisposed)
    (hgone : ∀ id, c.IsGone id → c'.IsGone id) (hnotices : ∀ id, noticesOf id shown = [])
    (hframes : ∀ id, c'.publishing id = c.publishing id)
    (hrecorded : c'.provider.tracker.recorded = c.provider.tracker.recorded) :
    c'.Solvent (es ++ shown) where
  coherent := hcoherent
  open' := hdisposed.trans h.open'
  account := by
    intro id
    obtain ⟨last, due, hbalanced, haccount⟩ := h.account id
    refine ⟨last, due, ?_, haccount.same (hframes id) (by rw [hrecorded]) (hgone id)⟩
    rw [noticesOf_append, hnotices id, List.append_nil]
    exact hbalanced

/-- A document that is gone is forgotten. -/
theorem forget (h : c.Solvent es) {b : Configuration} {x : DocumentId}
    (hcoherent : (b.forgetDocument x).1.Coherent) (hgone : c.IsGone x)
    (hdisposed : b.provider.isDisposed = c.provider.isDisposed)
    (hdocuments : b.documents = c.documents)
    (hrecorded : b.provider.tracker.recorded = c.provider.tracker.recorded)
    (hframes : ∀ id, b.publishing id = c.publishing id) :
    (b.forgetDocument x).1.Solvent (es ++ (b.forgetDocument x).2) := by
  have hgone' (id : DocumentId) (hid : c.IsGone id) : (b.forgetDocument x).1.IsGone id :=
    isGone_of_documents ((documents_forgetDocument b x).trans hdocuments).symm hid
  have hpaths : b.provider.trackedPaths x = c.provider.trackedPaths x := by
    rw [Provider.trackedPaths, Provider.trackedPaths, hrecorded]
  have hnone : (b.forgetDocument x).1.provider.tracker.recorded x = none := by
    rw [recorded_forgetDocument, if_pos rfl]
  refine h.turn x hcoherent ((isDisposed_forgetDocument b x).trans hdisposed) hgone' ?_ ?_ ?_ ?_
  · intro id hid
    rw [noticesOf_forgetDocument, if_neg (Ne.symm hid)]
  · intro id _
    rw [publishing_forgetDocument, hframes]
  · intro id hid
    rw [recorded_forgetDocument, if_neg hid, hrecorded]
  · intro last due hbalanced haccount
    have hnotices := noticesOf_forgetDocument b x x
    rw [if_pos rfl, hpaths] at hnotices
    have hframes' := (publishing_forgetDocument b x x).trans (hframes x)
    rw [hnotices]
    -- the destruction takes off what the tracker has; what a cycle has, the cycle will take off
    cases haccount with
    | resting hresting hdue =>
      rw [← hdue]
      refine ⟨last, [], hbalanced.takeOff, .resting (hframes'.trans hresting) ?_ ?_⟩
      · rw [trackedPaths_eq_nil hnone]
      · exact fun hnot => absurd (hgone' x hgone) hnot
    | announcing hannouncing hdue hnone' =>
      rw [if_pos (trackedPaths_eq_nil hnone'), List.append_nil]
      exact ⟨last, due, hbalanced, .announcing (hframes'.trans hannouncing) hdue hnone⟩
    | keeping hkeeping hdue hlast hnone' =>
      rw [if_pos (trackedPaths_eq_nil hnone'), List.append_nil]
      exact ⟨last, due, hbalanced, .keeping (hframes'.trans hkeeping) hdue hlast hnone⟩

/-- A result arrives while no update of its document is under way. -/
theorem resume (h : c.Solvent es) {cycle : Cycle} {place : Nat} {stack : List Frame} {u : Update}
    (hs : c.stack = .asking cycle place :: stack) (hu : Path.Distinct u.paths)
    (hturn : stack.any (Frame.isPublishing cycle.id) = false) :
    (((c.setTracker (c.provider.tracker.invalidate cycle.id).2).setStack
      (.updating cycle u :: stack)).publishSome (.cycle cycle.number cycle.id)
        (c.provider.tracker.invalidate cycle.id).1).1.Solvent
      (es ++ (((c.setTracker (c.provider.tracker.invalidate cycle.id).2).setStack
        (.updating cycle u :: stack)).publishSome (.cycle cycle.number cycle.id)
          (c.provider.tracker.invalidate cycle.id).1).2) := by
  generalize hb : (c.setTracker (c.provider.tracker.invalidate cycle.id).2).setStack
    (.updating cycle u :: stack) = b
  have hcoherent := h.coherent.resume hs hu
  rw [hb] at hcoherent
  have hrecorded (id : DocumentId) : b.provider.tracker.recorded id =
      if id = cycle.id then none else c.provider.tracker.recorded id := by
    rw [← hb]
    exact Tracker.recorded_invalidate _ _ _
  have hframes (id : DocumentId) :
      (b.publishSome (.cycle cycle.number cycle.id)
        (c.provider.tracker.invalidate cycle.id).1).1.publishing id = b.publishing id := by
    rw [publishing, stack_publishSome, List.filter_append, publishing]
    cases (c.provider.tracker.invalidate cycle.id).1 <;> rfl
  have hbelow : stack.filter (Frame.isPublishing cycle.id) = [] := by
    apply List.filter_eq_nil_iff.mpr
    exact List.any_eq_false.mp hturn
  refine h.turn cycle.id hcoherent ?_ ?_ ?_ ?_ ?_ ?_
  · rw [provider_publishSome, ← hb]
    rfl
  · intro id hid
    refine isGone_of_documents ?_ hid
    rw [documents_publishSome, ← hb]
    rfl
  · intro id hid
    exact (noticesOf_publishSome _ _ _ _).trans (if_neg (Ne.symm hid))
  · intro id hid
    rw [hframes, ← hb]
    exact publishing_of_stack [.updating cycle u] hs rfl rfl
      (by simpa [Frame.isPublishing] using Ne.symm hid)
  · intro id hid
    rw [provider_publishSome, hrecorded, if_neg hid]
  · intro last due hbalanced haccount
    have hresting : c.publishing cycle.id = [] := by
      rw [publishing, hs]
      exact hbelow
    have hdue : due = (c.provider.tracker.recorded cycle.id).getD [] :=
      haccount.of_publishing_eq_nil hresting
    have hsource : (Source.cycle cycle.number cycle.id).id = cycle.id := rfl
    rw [noticesOf_publishSome, if_pos hsource, ← hdue]
    have hupdating : b.publishing cycle.id = [.updating cycle u] := by
      rw [← hb, publishing, stack_setStack,
        List.filter_cons_of_pos (Frame.isPublishing_updating cycle u), hbelow]
    refine ⟨last, [], hbalanced.takeOff, .announcing ((hframes _).trans hupdating) rfl ?_⟩
    rw [provider_publishSome, hrecorded, if_pos rfl]

/-- An update is published. -/
theorem update (h : c.Solvent es) {cycle : Cycle} {u : Update} {stack : List Frame}
    (hs : c.stack = .updating cycle u :: stack)
    (hcoherent : (c.setStack (.delivering (.update u) (c.recipients (.update u)) ::
      .recording cycle u :: stack)).Coherent) :
    (c.setStack (.delivering (.update u) (c.recipients (.update u)) ::
      .recording cycle u :: stack)).Solvent
        (es ++ [.published (.cycle cycle.number cycle.id) (.update u)]) := by
  refine h.turn cycle.id hcoherent rfl (fun _ hid => hid) ?_ ?_ (fun _ _ => rfl) ?_
  · intro id hid
    exact (noticesOf_published _ _ _).trans (if_neg (Ne.symm hid))
  · intro id hid
    have hother : (Frame.updating cycle u).isPublishing id = false :=
      decide_eq_false (Ne.symm hid)
    refine publishing_of_stack [.delivering _ _, .recording cycle u] hs rfl hother ?_
    intro g hg
    rcases List.mem_cons.mp hg with rfl | hg
    · rfl
    · rw [List.mem_singleton.mp hg]
      exact hother
  · intro last due hbalanced haccount
    obtain ⟨hbelow, rfl, hnone⟩ := haccount.of_updating hs
    have hrecording : (c.setStack (.delivering (.update u) (c.recipients (.update u)) ::
        .recording cycle u :: stack)).publishing cycle.id = [.recording cycle u] := by
      rw [publishing, stack_setStack, List.filter_cons_of_neg Bool.false_ne_true,
        List.filter_cons_of_pos (Frame.isPublishing_recording cycle u), hbelow]
    have hnotices : noticesOf cycle.id
        [.published (.cycle cycle.number cycle.id) (.update u)] = [.update u] :=
      (noticesOf_published _ _ _).trans (if_pos rfl)
    refine ⟨u.paths, u.paths, ?_, .keeping hrecording rfl rfl hnone⟩
    rw [hnotices]
    exact hbalanced.update u

/-- An update is over: its paths are recorded, or taken off again, or there are none. -/
theorem settleUp (h : c.Solvent es) (fs : List Frame) {cycle : Cycle} {u : Update}
    {stack : List Frame} (hs : c.stack = .recording cycle u :: stack) (hcoherent : c'.Coherent)
    (hstack : c'.stack = fs ++ stack)
    (hfs : ∀ id, ∀ g ∈ fs, g.isPublishing id = false)
    (hdisposed : c'.provider.isDisposed = c.provider.isDisposed)
    (hdocuments : c'.documents = c.documents)
    (hnotices : ∀ id, id ≠ cycle.id → noticesOf id shown = [])
    (hrecorded : ∀ id, id ≠ cycle.id →
      c'.provider.tracker.recorded id = c.provider.tracker.recorded id)
    (hself : ∀ ns, Balanced ns u.paths u.paths → c.provider.tracker.recorded cycle.id = none →
      ∃ due, Balanced (ns ++ noticesOf cycle.id shown) u.paths due ∧
        due = c'.provider.trackedPaths cycle.id ∧ (¬ c'.IsGone cycle.id → due = u.paths)) :
    c'.Solvent (es ++ shown) := by
  refine h.turn cycle.id hcoherent hdisposed (fun _ => isGone_of_documents hdocuments.symm)
    hnotices ?_ hrecorded ?_
  · intro id hid
    exact publishing_of_stack fs hs hstack (decide_eq_false (Ne.symm hid)) (hfs id)
  · intro last due hbalanced haccount
    obtain ⟨hbelow, rfl, rfl, hnone⟩ := haccount.of_recording hs
    obtain ⟨due, hbalanced', hdue, hlive⟩ := hself _ hbalanced hnone
    refine ⟨u.paths, due, hbalanced', .resting ?_ hdue hlive⟩
    rw [publishing, hstack, List.filter_append, hbelow, List.append_nil]
    apply List.filter_eq_nil_iff.mpr
    intro g hg
    simp [hfs cycle.id g hg]

/-- The paths of an update are recorded. -/
theorem record (h : c.Solvent es) {cycle : Cycle} {u : Update} {stack : List Frame}
    (hs : c.stack = .recording cycle u :: stack)
    (hcoherent : ((c.setTracker (c.provider.tracker.record cycle.id u.paths)).setStack
      (.finishing cycle u.paths.length :: stack)).Coherent) :
    ((c.setTracker (c.provider.tracker.record cycle.id u.paths)).setStack
      (.finishing cycle u.paths.length :: stack)).Solvent (es ++ []) := by
  refine h.settleUp [.finishing _ _] hs hcoherent rfl ?_ rfl rfl (fun _ _ => rfl) ?_ ?_
  · simp [Frame.isPublishing]
  · intro id hid
    exact (Tracker.recorded_record _ _ _ _).trans (if_neg hid)
  · intro ns hbalanced _
    refine ⟨u.paths, ?_, ?_, fun _ => rfl⟩
    · rw [noticesOf_nil, List.append_nil]
      exact hbalanced
    · show u.paths = ((c.provider.tracker.record cycle.id u.paths).recorded cycle.id).getD []
      rw [Tracker.getD_recorded_record _ (h.coherent.distinct_of_head hs rfl), if_pos rfl]

/-- The document of an update was destroyed while the update was published: its paths are taken off
again at once. -/
theorem retract (h : c.Solvent es) {cycle : Cycle} {u : Update} {stack : List Frame}
    (hs : c.stack = .recording cycle u :: stack)
    (hw : c.provider.tracker.isWatched cycle.id = false) (hu : u.paths ≠ [])
    (hcoherent : (c.setStack (.delivering (.invalidation ⟨u.paths⟩)
      (c.recipients (.invalidation ⟨u.paths⟩)) :: .finishing cycle u.paths.length ::
        stack)).Coherent) :
    (c.setStack (.delivering (.invalidation ⟨u.paths⟩) (c.recipients (.invalidation ⟨u.paths⟩)) ::
      .finishing cycle u.paths.length :: stack)).Solvent
        (es ++ [.published (.cycle cycle.number cycle.id) (.invalidation ⟨u.paths⟩)]) := by
  refine h.settleUp [.delivering _ _, .finishing _ _] hs hcoherent rfl ?_ rfl rfl ?_
    (fun _ _ => rfl) ?_
  · simp [Frame.isPublishing]
  · intro id hid
    exact (noticesOf_published _ _ _).trans (if_neg (Ne.symm hid))
  · intro ns hbalanced hnone
    refine ⟨[], ?_, (trackedPaths_eq_nil (c := c) hnone).symm, ?_⟩
    · have hnotices : noticesOf cycle.id
          [.published (.cycle cycle.number cycle.id) (.invalidation ⟨u.paths⟩)] =
            [.invalidation ⟨u.paths⟩] := (noticesOf_published _ _ _).trans (if_pos rfl)
      rw [hnotices]
      exact hbalanced.invalidation hu
    · intro hnot
      rcases (h.coherent.backed_of_head hs rfl).state with hflag | hid | hdisposed
      · cases hw.symm.trans hflag
      · exact absurd hid hnot
      · cases h.open'.symm.trans hdisposed

/-- Every change keeps the accounts. -/
theorem change (h : c.Solvent es) (hchange : Change takesTurns c shown c') :
    c'.Solvent (es ++ shown) := by
  have hcoherent : c'.Coherent := by
    refine h.coherent.change hchange ?_
    intro c m hm
    exact (Bool.and_eq_true_iff.mp hm).1
  have hgone (id : DocumentId) : c.IsGone id → c'.IsGone id := isGone_of_change hchange
  have hover (fs : List Frame) {f : Frame} {stack : List Frame} (hs : c.stack = f :: stack)
      (hstack : c'.stack = fs ++ stack) (hf : ∀ id, f.isPublishing id = false)
      (hfs : ∀ id, ∀ g ∈ fs, g.isPublishing id = false) (id : DocumentId) :
      c'.publishing id = c.publishing id := publishing_of_stack fs hs hstack (hf id) (hfs id)
  have hpop {f : Frame} {stack : List Frame} (hs : c.stack = f :: stack)
      (hstack : c'.stack = stack) (hf : ∀ id, f.isPublishing id = false) (id : DocumentId) :
      c'.publishing id = c.publishing id :=
    hover [] hs hstack hf (fun _ => List.forall_mem_nil _) id
  cases hchange with
  | register => exact h.idle hcoherent rfl hgone (fun _ => rfl) (fun _ => rfl) rfl
  | release => exact h.idle hcoherent rfl hgone (fun _ => rfl) (fun _ => rfl) rfl
  | skip => exact h.idle hcoherent rfl hgone (fun _ => rfl) (fun _ => rfl) rfl
  | start => exact h.idle hcoherent rfl hgone (fun _ => rfl) (fun _ => rfl) rfl
  | watch => exact h.idle hcoherent rfl hgone (fun _ => rfl) (fun _ => rfl) rfl
  | @watchDestroyed i d hc hhandle hd hdisposed hw hdestroyed =>
    exact h.forget hcoherent ⟨i, d, hd, rfl, hdestroyed⟩ rfl rfl rfl fun _ => rfl
  | poll => exact h.idle hcoherent rfl hgone (fun _ => rfl) (fun _ => rfl) rfl
  | abandon => exact h.idle hcoherent rfl hgone (fun _ => rfl) (fun _ => rfl) rfl
  | openDocument => exact h.idle hcoherent rfl hgone (fun _ => rfl) (fun _ => rfl) rfl
  | destroy => exact h.idle hcoherent rfl hgone (fun _ => rfl) (fun _ => rfl) rfl
  | edit => exact h.idle hcoherent rfl hgone (fun _ => rfl) (fun _ => rfl) rfl
  | focus => exact h.idle hcoherent rfl hgone (fun _ => rfl) (fun _ => rfl) rfl
  | dispose hc hm => cases (Bool.and_eq_true_iff.mp hm).2
  | dropHandle => exact h.idle hcoherent rfl hgone (fun _ => rfl) (fun _ => rfl) rfl
  | returns hm hs =>
    exact h.idle hcoherent rfl hgone (fun _ => rfl) (hpop hs rfl fun _ => rfl) rfl
  | busy hm hs =>
    exact h.idle hcoherent rfl hgone (fun _ => rfl) (hpop hs rfl fun _ => rfl) rfl
  | discard hm hs =>
    exact h.idle hcoherent rfl hgone (fun _ => rfl) (hpop hs rfl fun _ => rfl) rfl
  | resume hm hs hdisposed hw hd hu =>
    refine h.resume hs (distinct_messagesOf hu) ?_
    have hturn := (Bool.and_eq_true_iff.mp hm).2
    rw [hs] at hturn
    exact Bool.not_eq_true' _ ▸ hturn
  | hand hs =>
    refine h.idle hcoherent rfl hgone (fun _ => rfl)
      (hover [.calling _ _, .delivering _ _] hs rfl (fun _ => rfl) ?_) rfl
    simp [Frame.isPublishing]
  | handed hs =>
    exact h.idle hcoherent rfl hgone (fun _ => rfl) (hpop hs rfl fun _ => rfl) rfl
  | update hs => exact h.update hs hcoherent
  | record hs => exact h.record hs hcoherent
  | leave hs hw hu =>
    refine h.settleUp [.finishing _ _] hs hcoherent rfl ?_ rfl rfl (fun _ _ => rfl)
      (fun _ _ => rfl) ?_
    · simp [Frame.isPublishing]
    · intro ns hbalanced hnone
      refine ⟨_, ?_, ?_, fun _ => rfl⟩
      · rw [noticesOf_nil, List.append_nil]
        exact hbalanced
      · rw [hu]
        exact (trackedPaths_eq_nil (c := c) hnone).symm
  | retract hs hw hu => exact h.retract hs hw hu hcoherent
  | finish hs =>
    exact h.idle hcoherent rfl hgone (fun _ => rfl) (hpop hs rfl fun _ => rfl) rfl
  | letGo hs =>
    refine h.idle hcoherent (isDisposed_releaseWatch _ _) hgone (fun _ => rfl)
      (hpop hs (stack_releaseWatch _ _) fun _ => rfl) ?_
    rw [tracker_releaseWatch]
    rfl
  | called hs =>
    exact h.idle hcoherent rfl hgone (fun _ => rfl) (hpop hs rfl fun _ => rfl) rfl
  | @call w ws stack hs =>
    refine h.forget hcoherent (h.coherent.taken hs).2.2 rfl rfl rfl fun id => ?_
    exact publishing_of_stack [.destroying ws] hs rfl rfl (by simp [Frame.isPublishing])
  | miss hs hdead => cases hdead.symm.trans (h.coherent.not_miss hs)
  | @attach i x key stack hs hw =>
    obtain ⟨pending, n, hattach, hshown⟩ :=
      attach_of_isWatched (c.setStack stack) i x key hw
    refine h.idle hcoherent ?_ hgone ?_ (hpop hs (stack_attach _ _ _ _) fun _ => rfl) ?_
    · rw [hattach]
      exact isDisposed_releaseWatch _ _
    · intro id
      apply List.filterMap_eq_nil_iff.mpr
      intro e he
      obtain ⟨_, _, _, rfl⟩ := hshown e he
      rfl
    · rw [hattach]
      show ((c.setStack stack).releaseWatch x).provider.tracker.recorded = _
      rw [tracker_releaseWatch]
      rfl
  | detach hs =>
    exact h.idle hcoherent rfl hgone (fun _ => rfl) (hpop hs rfl fun _ => rfl) rfl
  | reap => exact h.idle hcoherent rfl hgone (fun _ => rfl) (fun _ => rfl) rfl

end Solvent

theorem solvent_new (settings : Settings) {documents : List Document} (h : Unwatched documents) :
    (new settings documents).Solvent [] :=
  ⟨coherent_new settings h, rfl, fun _ => ⟨[], [], .nil, .resting rfl rfl fun _ => rfl⟩⟩

/-- What is outstanding of the notices for a document when no work is in progress: everything but
the last update has been cleared, and the last update has been cleared if the document is
destroyed. The destruction is handled by the provider's state, which the host's handle keeps alive,
or a pending cycle. -/
structure Outstanding (c : Configuration) (d : Document) (ns : List Notice) : Prop where
  tracked : d.isDestroyed = false → c.provider.trackedPaths d.id = lastPaths ns
  live : d.isDestroyed = false → ∀ before u after, ns = before ++ .update u :: after →
    u.paths ≠ [] → (∀ v, .update v ∉ after) → after = []
  destroyed : c.isHandleHeld = true ∨ c.pending ≠ [] → d.isDestroyed = true → ∀ before u after,
    ns = before ++ .update u :: after → u.paths ≠ [] → (∀ v, .update v ∉ after) →
      after = [.invalidation ⟨u.paths⟩]

theorem Solvent.outstanding (h : c.Solvent es) (hidle : c.isIdle = true) {d : Document}
    (hd : d ∈ c.documents) : c.Outstanding d (noticesOf d.id es) := by
  obtain ⟨last, due, hbalanced, haccount⟩ := h.account d.id
  obtain ⟨i, hi⟩ := List.getElem?_of_mem hd
  have hframes : c.publishing d.id = [] := by
    rw [publishing, List.isEmpty_iff.mp hidle]
    rfl
  have hdue := haccount.of_publishing_eq_nil hframes
  have hlive (hlive : d.isDestroyed = false) : due = lastPaths (noticesOf d.id es) := by
    rw [← hbalanced.last_eq]
    cases haccount with
    | resting _ _ hsame => exact hsame (h.coherent.not_isGone hi hlive)
    | announcing hframes' => cases hframes.symm.trans hframes'
    | keeping hframes' => cases hframes.symm.trans hframes'
  refine ⟨?_, ?_, ?_⟩
  · intro hd
    rw [← hdue, hlive hd]
  · intro hd before u after hns hu hlast
    refine (hbalanced.eq_nil_iff hns hu hlast).mpr ?_
    rw [hlive hd, hns, lastPaths_of_last hlast]
    exact hu
  · intro hkept hdestroyed before u after hns hu hlast
    have halive : c.isAlive = true := by rcases hkept with hkept | hkept <;> simp [isAlive, hkept]
    have hnone : due = [] := by
      rcases h.coherent.together hidle halive hd with ⟨_, _, hlive, _⟩ | ⟨hw, _⟩
      · cases hlive.symm.trans hdestroyed
      · rw [hdue, trackedPaths_eq_nil (h.coherent.recorded_eq_none hw)]
    have hmatched := hbalanced.matched
    rw [hns] at hmatched
    refine hmatched.after_last hu hlast ?_
    exact fun hnil => (hbalanced.eq_nil_iff hns hu hlast).mp hnil hnone

/-- As long as cycles of one document take turns, no message is left behind, whatever else listeners
do: every invalidation lists the paths of the update right before it, every update with paths is
cleared before the next one, and what is outstanding in the end is the last update of a live
document, whose paths are tracked. -/
theorem run_cleared {settings : Settings} {documents : List Document} {ms : List Move}
    (h : Unwatched documents) (hms : admits takesTurns (new settings documents) ms = true) :
    (∀ id, Matched (noticesOf id ((new settings documents).run ms).2)) ∧
    (((new settings documents).run ms).1.isIdle = true →
      ∀ d ∈ ((new settings documents).run ms).1.documents,
        ((new settings documents).run ms).1.Outstanding d
          (noticesOf d.id ((new settings documents).run ms).2)) ∧
    (.dropHandle ∉ ms → ((new settings documents).run ms).1.isHandleHeld = true) := by
  have hsolvent : ((new settings documents).run ms).1.Solvent ((new settings documents).run ms).2 :=
    run_keeps (P := Solvent) (ready_new settings documents) hms (solvent_new settings h)
      Solvent.change
  refine ⟨?_, fun hidle d hd => hsolvent.outstanding hidle hd, fun hhandle =>
    (isHandleHeld_run (ready_new settings documents) ms).mpr ⟨rfl, hhandle⟩⟩
  intro id
  obtain ⟨_, _, hbalanced, _⟩ := hsolvent.account id
  exact hbalanced.matched

theorem run_cleared_destroyedMidway :
    Unwatched [savedDocument] ∧
    admits takesTurns (new .default [savedDocument]) destroyedMidway = true ∧
    (∀ id, Matched (noticesOf id ((new .default [savedDocument]).run destroyedMidway).2)) ∧
    ((new .default [savedDocument]).run destroyedMidway).1.isIdle = true ∧
    (∀ d ∈ ((new .default [savedDocument]).run destroyedMidway).1.documents,
      ((new .default [savedDocument]).run destroyedMidway).1.Outstanding d
        (noticesOf d.id ((new .default [savedDocument]).run destroyedMidway).2)) ∧
    ((new .default [savedDocument]).run destroyedMidway).1.isHandleHeld = true := by
  have hdocuments : Unwatched [savedDocument] := ⟨by decide, by decide⟩
  have hms : admits takesTurns (new .default [savedDocument]) destroyedMidway = true := by decide
  have hcleared := run_cleared hdocuments hms
  exact ⟨hdocuments, hms, hcleared.1, by decide, hcleared.2.1 (by decide), hcleared.2.2 (by decide)⟩

end Configuration

end DiagnosticRelay
