import DiagnosticRelay.Proofs.Provider.Reference
import DiagnosticRelay.Proofs.Provider.Watching.Agreement

/-!
# The provider follows the reference

Along a run with passive listeners the provider lags behind the reference: what the reference has
told already, the provider has still to deliver, and to record. `Follows` says by how much. The
frames of the stack are `Layered`: at most one update is under way, and below it there are only
compilers being asked. So the frames owe exactly what the reference is ahead
(`Configuration.owed`), and the paths of the update that is under way are those the tracker does
not know yet (`Configuration.promised`). Work keeps the relation with the reference standing
still; moves take the reference along. Once no listener is being called nothing is owed
(`run_heard`).
-/

namespace DiagnosticRelay

namespace Frame

/-- Whether the compiler is being asked. -/
def isAsking : Frame → Bool
  | .asking .. => true
  | _ => false

/-- Whether a watch is to be called next. -/
def isTaken : Frame → Bool
  | .destroying (_ :: _) => true
  | _ => false

/-- What the frame has still to deliver to the two listeners. -/
def owed : Frame → List Notice
  | .delivering notice waiting => (waiting.filter isAttending).map fun _ => notice
  | .updating _ u => [.update u]
  | _ => []

/-- The paths that the frame is going to record for an identity. -/
def promised (id : DocumentId) : Frame → Option (List Path)
  | .updating cycle u | .recording cycle u => if cycle.id = id then some u.paths else none
  | _ => none

end Frame

/-- Below an update under way, and below a compiler being asked, there are only compilers being
asked. No watch is to be called next. -/
def Layered : List Frame → Prop
  | [] => True
  | f :: stack => (f.isAsking = true ∨ f.update?.isSome = true → ∀ g ∈ stack, g.isAsking = true) ∧
      f.isTaken = false ∧ Layered stack

/-- Other frames may be put on top. -/
theorem Layered.cons {f : Frame} {stack : List Frame} (h : Layered stack)
    (hasking : f.isAsking = false) (hupdate : f.update? = none) (htaken : f.isTaken = false) :
    Layered (f :: stack) := by
  refine ⟨?_, htaken, h⟩
  rintro (h | h)
  · cases hasking.symm.trans h
  · rw [hupdate] at h
    cases h

namespace Configuration

/-- What has still to be delivered to the two listeners. -/
def owed (c : Configuration) : List Notice := c.stack.flatMap Frame.owed

/-- The paths that are going to be recorded for an identity. -/
def promised (c : Configuration) (id : DocumentId) : Option (List Path) :=
  c.stack.findSome? (Frame.promised id)

/-- The two listeners are registered, and identities like theirs are not given out again. -/
structure Attending (l : Listeners Unit) : Prop where
  updates : (l.updates.map Prod.fst).filter isAttending = [1]
  invalidations : (l.invalidations.map Prod.fst).filter isAttending = [2]
  lastId : 2 ≤ l.lastId

/-- How far the provider is behind the reference. -/
structure Follows (c : Configuration) (es : List Event) (s : Reference) (told : List Notice) :
    Prop where
  coherent : c.Coherent
  handle : c.isHandleHeld = true
  disposed : s.isDisposed = c.provider.isDisposed
  attending : c.provider.isDisposed = false → Attending c.provider.listeners
  layered : Layered c.stack
  flagged : ∀ id, (c.promised id).isSome = true → c.provider.tracker.isWatched id = true
  heard : heard es ++ c.owed = told
  last : c.provider.isDisposed = false →
    ∀ id, s.last id = (c.promised id).getD (c.provider.trackedPaths id)

variable {c c' : Configuration} {id : DocumentId}

theorem owed_of_stack {fs stack : List Frame} (hs : c.stack = fs ++ stack) :
    c.owed = fs.flatMap Frame.owed ++ stack.flatMap Frame.owed := by
  rw [owed, hs, List.flatMap_append]

theorem promised_of_stack {fs stack : List Frame} (hs : c.stack = fs ++ stack) :
    c.promised id =
      (fs.findSome? (Frame.promised id)).or (stack.findSome? (Frame.promised id)) := by
  rw [promised, hs, List.findSome?_append]

/-- Compilers being asked owe nothing and promise nothing. -/
theorem owed_of_isAsking {stack : List Frame} (h : ∀ f ∈ stack, f.isAsking = true) :
    stack.flatMap Frame.owed = [] := by
  rw [List.flatMap_eq_nil_iff]
  intro f hf
  have hasking := h f hf
  cases f <;> simp_all [Frame.isAsking, Frame.owed]

theorem promised_of_isAsking {stack : List Frame} (h : ∀ f ∈ stack, f.isAsking = true) :
    stack.findSome? (Frame.promised id) = none := by
  rw [List.findSome?_eq_none_iff]
  intro f hf
  have hasking := h f hf
  cases f <;> simp_all [Frame.isAsking, Frame.promised]

/-! ## The two listeners -/

namespace Attending

variable {l : Listeners Unit}

theorem register (h : Attending l) (channel : Channel) : Attending (l.register channel ()).2 := by
  have hnew : isAttending (l.lastId + 1) = false := by
    have h0 : l.lastId ≠ 0 := Nat.ne_of_gt (Nat.lt_of_lt_of_le Nat.zero_lt_two h.lastId)
    have h1 : l.lastId ≠ 1 := Nat.ne_of_gt h.lastId
    simp [isAttending, h0, h1]
  cases hclosed : l.isClosed with
  | true =>
    rw [Listeners.register_of_isClosed hclosed]
    exact h
  | false =>
    cases channel with
    | updates =>
      refine ⟨?_, ?_, ?_⟩
      · simp [Listeners.register, hclosed, hnew, h.updates]
      · simp [Listeners.register, hclosed, h.invalidations]
      · simpa [Listeners.register, hclosed] using Nat.le_succ_of_le h.lastId
    | invalidations =>
      refine ⟨?_, ?_, ?_⟩
      · simp [Listeners.register, hclosed, h.updates]
      · simp [Listeners.register, hclosed, hnew, h.invalidations]
      · simpa [Listeners.register, hclosed] using Nat.le_succ_of_le h.lastId

theorem filter_take {x : ListenerId} (hx : isAttending x = false)
    (table : List (ListenerId × Unit)) :
    ((Table.take x table).2.map Prod.fst).filter isAttending =
      (table.map Prod.fst).filter isAttending := by
  induction table with
  | nil => rfl
  | cons entry table ih =>
    obtain ⟨y, a⟩ := entry
    by_cases hy : y = x
    · subst hy
      rw [Table.take_cons_self]
      simp [hx]
    · rw [Table.take_cons_of_ne hy]
      simp only [List.map_cons, List.filter_cons, ih]

theorem remove (h : Attending l) {x : ListenerId} (hx : isAttending x = false) :
    Attending (l.remove x).2 :=
  ⟨(filter_take hx _).trans h.updates, (filter_take hx _).trans h.invalidations, h.lastId⟩

/-- Exactly one of the two hears a notice. -/
theorem recipients (h : Attending c.provider.listeners) (notice : Notice) :
    ((c.recipients notice).filter isAttending).map (fun _ => notice) = [notice] := by
  cases notice with
  | update u => exact congrArg (List.map _) h.updates
  | invalidation i => exact congrArg (List.map _) h.invalidations

end Attending

/-! ## While the reference stands still -/

/-- The moves that nothing occurs with. -/
def quiet (c : Configuration) (m : Move) : Bool :=
  c.passive m &&
    match m with
    | .answers (some (.result _)) | .destroy _ | .dispose => false
    | _ => true

theorem opensNew_of_passive {m : Move} (h : c.passive m = true) : c.opensNew m = true :=
  (Bool.and_eq_true_iff.mp h).1

theorem passive_of_quiet {m : Move} (h : c.quiet m = true) : c.passive m = true :=
  (Bool.and_eq_true_iff.mp h).1

/-- While a listener is called nobody does anything but let it return. -/
theorem head?_of_passive {m : Move} (h : c.passive m = true) (hm : m ≠ .returns)
    (listener : ListenerId) (notice : Notice) :
    c.stack.head? ≠ some (.calling listener notice) := by
  intro hhead
  obtain ⟨stack, hs⟩ := List.head?_eq_some_iff.mp hhead
  have hmove := (Bool.and_eq_true_iff.mp h).2
  rw [hs] at hmove
  cases m with
  | returns => exact hm rfl
  | _ => cases hmove

theorem isAttending_of_passive {x : ListenerId} (h : c.passive (.release x) = true) :
    isAttending x = false := by
  have hmove := (Bool.and_eq_true_iff.mp h).2
  have hhead := head?_of_passive h (by simp)
  cases hs : c.stack with
  | nil => simpa [hs] using hmove
  | cons f stack =>
    cases f with
    | calling listener notice => exact absurd (by rw [hs]; rfl) (hhead listener notice)
    | _ => simpa [hs] using hmove

theorem not_passive_dropHandle : c.passive .dropHandle = false := by
  cases hs : c.stack with
  | nil => simp [passive, hs]
  | cons f stack => cases f <;> simp [passive, hs]

/-- Where nobody is called, only compilers are being asked. -/
theorem isAsking_of_rest (h : Layered c.stack) (hc : c.advance = none)
    (hcalling : ∀ listener notice, c.stack.head? ≠ some (.calling listener notice)) :
    ∀ f ∈ c.stack, f.isAsking = true := by
  cases hs : c.stack with
  | nil => exact List.forall_mem_nil _
  | cons f stack =>
    rw [hs] at h hcalling
    have hcallout := (advance_eq_none_iff c).mp hc f (by rw [hs]; rfl)
    have hasking : f.isAsking = true := by
      cases f with
      | calling listener notice => exact absurd rfl (hcalling listener notice)
      | asking => rfl
      | _ => cases hcallout
    intro g hg
    rcases List.mem_cons.mp hg with rfl | hg
    · exact hasking
    · exact h.1 (.inl hasking) g hg

variable {es shown : List Event} {s : Reference} {told : List Notice}

namespace Follows

/-- What is shown has been owed before, and nothing else changes that the reference knows of. -/
theorem same (h : c.Follows es s told) (hcoherent : c'.Coherent)
    (hhandle : c'.isHandleHeld = c.isHandleHeld)
    (hdisposed : c'.provider.isDisposed = c.provider.isDisposed)
    (hattending : Attending c.provider.listeners → Attending c'.provider.listeners)
    (hlayered : Layered c'.stack)
    (hflags : ∀ id, c.provider.tracker.isWatched id = true →
      c'.provider.tracker.isWatched id = true)
    (hrecorded : c'.provider.tracker.recorded = c.provider.tracker.recorded)
    (howed : DiagnosticRelay.heard shown ++ c'.owed = c.owed)
    (hpromised : ∀ id, c'.promised id = c.promised id) : c'.Follows (es ++ shown) s told where
  coherent := hcoherent
  handle := hhandle.trans h.handle
  disposed := h.disposed.trans hdisposed.symm
  attending := by
    rw [hdisposed]
    exact fun hopen => hattending (h.attending hopen)
  layered := hlayered
  flagged := by
    intro id hid
    rw [hpromised] at hid
    exact hflags id (h.flagged id hid)
  heard := by
    rw [heard_append, List.append_assoc, howed]
    exact h.heard
  last := by
    rw [hdisposed]
    intro hopen id
    rw [hpromised, Provider.trackedPaths, hrecorded]
    exact h.last hopen id

/-- The callout or piece of work on top goes on with others, which owe and promise as much. -/
theorem top (h : c.Follows es s told) (fs : List Frame) (hcoherent : c'.Coherent) {f : Frame}
    {stack : List Frame} (hs : c.stack = f :: stack) (hstack : c'.stack = fs ++ stack)
    (hhandle : c'.isHandleHeld = c.isHandleHeld)
    (hdisposed : c'.provider.isDisposed = c.provider.isDisposed)
    (hlisteners : c'.provider.listeners = c.provider.listeners)
    (htracker : c'.provider.tracker = c.provider.tracker)
    (hlayered : Layered (f :: stack) → Layered (fs ++ stack))
    (howed : DiagnosticRelay.heard shown ++ fs.flatMap Frame.owed = f.owed)
    (hpromised : ∀ id, fs.findSome? (Frame.promised id) = f.promised id) :
    c'.Follows (es ++ shown) s told := by
  have hs' : c.stack = [f] ++ stack := hs
  refine h.same hcoherent hhandle hdisposed ?_ ?_ ?_ ?_ ?_ ?_
  · rw [hlisteners]
    exact fun hattending => hattending
  · rw [hstack]
    exact hlayered (hs ▸ h.layered)
  · rw [htracker]
    exact fun _ hflag => hflag
  · rw [htracker]
  · rw [owed_of_stack hstack, owed_of_stack hs', ← List.append_assoc, howed]
    simp
  · intro id
    rw [promised_of_stack hstack, promised_of_stack hs', hpromised]
    simp

/-- Nothing changes that the reference or the two listeners know of. -/
theorem still (h : c.Follows es s told) (hcoherent : c'.Coherent)
    (hhandle : c'.isHandleHeld = c.isHandleHeld) (hprovider : c'.provider = c.provider)
    (hstack : c'.stack = c.stack) (hnothing : DiagnosticRelay.heard shown = []) :
    c'.Follows (es ++ shown) s told := by
  refine h.same hcoherent hhandle ?_ ?_ ?_ ?_ ?_ ?_ ?_
  · rw [hprovider]
  · rw [hprovider]
    exact fun hattending => hattending
  · rw [hstack]
    exact h.layered
  · rw [hprovider]
    exact fun _ hflag => hflag
  · rw [hprovider]
  · rw [hnothing, owed, owed, hstack, List.nil_append]
  · intro id
    rw [promised, promised, hstack]

/-- The callout or piece of work on top is over, and owed nothing but what is shown. -/
theorem popped (h : c.Follows es s told) (hcoherent : c'.Coherent) {f : Frame} {stack : List Frame}
    (hs : c.stack = f :: stack) (hhandle : c'.isHandleHeld = c.isHandleHeld)
    (hprovider : c'.provider = c.provider) (hstack : c'.stack = stack)
    (howed : DiagnosticRelay.heard shown = f.owed) (hpromised : ∀ id, f.promised id = none) :
    c'.Follows (es ++ shown) s told := by
  refine h.top [] hcoherent hs hstack hhandle ?_ ?_ ?_ (·.2.2) ?_ fun id => (hpromised id).symm
  · rw [hprovider]
  · rw [hprovider]
  · rw [hprovider]
  · rw [howed]
    exact List.append_nil _

/-- An update under way is of a document that is still watched. -/
theorem isWatched_of_promised (h : c.Follows es s told) (id : DocumentId) {f : Frame}
    {stack : List Frame} (hs : c.stack = f :: stack) (hf : (f.promised id).isSome = true) :
    c.provider.tracker.isWatched id = true := by
  apply h.flagged id
  obtain ⟨ps, hps⟩ := Option.isSome_iff_exists.mp hf
  rw [promised, hs, List.findSome?_cons_of_isSome hf, hps]
  rfl

/-- The paths of an update that was under way are recorded. -/
theorem record (h : c.Follows es s told) {cycle : Cycle} {u : Update} {stack : List Frame}
    (hs : c.stack = .recording cycle u :: stack)
    (hw : c.provider.tracker.isWatched cycle.id = true) :
    ((c.setTracker (c.provider.tracker.record cycle.id u.paths)).setStack
      (.finishing cycle u.paths.length :: stack)).Follows es s told := by
  have hs' : c.stack = [.recording cycle u] ++ stack := hs
  have hlayered := h.layered
  rw [hs] at hlayered
  have hbelow := hlayered.1 (.inr rfl)
  have hpromised (id : DocumentId) :
      c.promised id = if cycle.id = id then some u.paths else none := by
    rw [promised_of_stack hs', promised_of_isAsking hbelow]
    simp [Frame.promised]
  have hnone (id : DocumentId) :
      ((c.setTracker (c.provider.tracker.record cycle.id u.paths)).setStack
        (.finishing cycle u.paths.length :: stack)).promised id = none :=
    (List.findSome?_cons_of_isNone rfl).trans (promised_of_isAsking hbelow)
  constructor
  case coherent => exact h.coherent.record hs hw
  case handle => exact h.handle
  case disposed => exact h.disposed
  case attending => exact h.attending
  case layered => exact hlayered.2.2.cons rfl rfl rfl
  case flagged =>
    intro id hid
    rw [hnone] at hid
    cases hid
  case heard =>
    rw [← h.heard, owed_of_stack hs']
    rfl
  case last =>
    intro hopen id
    have hlast := h.last hopen id
    rw [hpromised] at hlast
    rw [hnone, hlast]
    show _ = ((c.provider.tracker.record cycle.id u.paths).recorded id).getD []
    rw [Tracker.getD_recorded_record _ (h.coherent.distinct_of_head hs rfl)]
    by_cases hid : cycle.id = id
    · rw [if_pos hid, if_pos hid.symm]
      rfl
    · rw [if_neg hid, if_neg (Ne.symm hid)]
      rfl

/-- A document that was destroyed before it could be watched is forgotten: nothing was recorded. -/
theorem watchDestroyed (h : c.Follows es s told) {i : DocumentIndex} {d : Document}
    (hw : c.provider.tracker.isWatched d.id = false)
    (hcoherent : ((c.flag i d).forgetDocument d.id).1.Coherent) :
    ((c.flag i d).forgetDocument d.id).1.Follows
      (es ++ ((c.flag i d).forgetDocument d.id).2) s told := by
  have hnone : c.provider.tracker.recorded d.id = none := h.coherent.recorded_eq_none hw
  have hnothing : ((c.flag i d).provider.tracker.forget d.id).1 = none := by
    rw [Tracker.forget_fst, Tracker.invalidate_fst]
    show (if (c.provider.tracker.recorded d.id).getD [] = [] then _ else _) = _
    rw [hnone]
    rfl
  have hforget : (c.flag i d).forgetDocument d.id =
      (((c.flag i d).setTracker ((c.flag i d).provider.tracker.forget d.id).2).push
        (.forgetting d.id), []) := by
    rw [forgetDocument_eq, hnothing]
    rfl
  have hstack : ((c.flag i d).forgetDocument d.id).1.stack =
      [.forgetting d.id, .attaching i d.id c.nextKey] ++ c.stack := by
    rw [hforget]
    rfl
  refine h.same hcoherent ?_ ?_ ?_ ?_ ?_ ?_ ?_ ?_
  · rw [hforget]
    rfl
  · rw [isDisposed_forgetDocument]
    rfl
  · rw [hforget]
    exact fun hattending => hattending
  · rw [hstack]
    exact (h.layered.cons rfl rfl rfl).cons rfl rfl rfl
  · intro id hflag
    have hid : id ≠ d.id := by
      rintro rfl
      cases hw.symm.trans hflag
    rw [isWatched_forgetDocument, if_neg hid]
    simpa [flag, setTracker, hid] using hflag
  · funext id
    rw [recorded_forgetDocument]
    split
    · next hid => rw [hid, hnone]
    · rfl
  · rw [owed_of_stack hstack, hforget]
    rfl
  · intro id
    rw [promised_of_stack hstack]
    rfl

/-- While nothing occurs the reference stands still. -/
theorem change (h : c.Follows es s told) (hchange : Change quiet c shown c') :
    c'.Follows (es ++ shown) s told := by
  have hcoherent : c'.Coherent := h.coherent.change hchange fun _ _ hm =>
    opensNew_of_passive (passive_of_quiet hm)
  cases hchange with
  | register channel =>
    exact h.same hcoherent rfl rfl (·.register channel) h.layered (fun _ hflag => hflag) rfl rfl
      fun _ => rfl
  | release id hc hm =>
    have hx := isAttending_of_passive (passive_of_quiet hm)
    exact h.same hcoherent rfl rfl (·.remove hx) h.layered (fun _ hflag => hflag) rfl rfl
      fun _ => rfl
  | skip => exact h.still hcoherent rfl rfl rfl rfl
  | start => exact h.still hcoherent rfl rfl rfl rfl
  | @watch i d hc hhandle hd hdisposed hw hlive =>
    refine h.same hcoherent rfl rfl (fun hl => hl) (h.layered.cons rfl rfl rfl) ?_ rfl rfl
      fun _ => rfl
    intro id hflag
    simp [flag, setTracker, updateDocument, hflag]
  | watchDestroyed hc hhandle hd hdisposed hw => exact h.watchDestroyed hw hcoherent
  | poll hc hm =>
    have hasking :=
      isAsking_of_rest h.layered hc (head?_of_passive (passive_of_quiet hm) (by simp))
    refine h.same hcoherent rfl rfl (fun hl => hl) ?_ (fun _ hflag => hflag) rfl rfl fun _ => rfl
    exact ⟨fun _ => hasking, rfl, h.layered⟩
  | abandon => exact h.still hcoherent rfl rfl rfl rfl
  | openDocument => exact h.still hcoherent rfl rfl rfl rfl
  | destroy hc hm => cases (Bool.and_eq_true_iff.mp hm).2
  | edit => exact h.still hcoherent rfl rfl rfl rfl
  | focus => exact h.still hcoherent rfl rfl rfl rfl
  | dispose hc hm => cases (Bool.and_eq_true_iff.mp hm).2
  | dropHandle hc hm =>
    cases not_passive_dropHandle.symm.trans (passive_of_quiet hm)
  | returns hm hs => exact h.popped hcoherent hs rfl rfl rfl rfl fun _ => rfl
  | busy hm hs => exact h.popped hcoherent hs rfl rfl rfl rfl fun _ => rfl
  | discard hm hs => exact h.popped hcoherent hs rfl rfl rfl rfl fun _ => rfl
  | resume hm => cases (Bool.and_eq_true_iff.mp hm).2
  | @hand notice x waiting stack hs =>
    refine h.top [.calling x notice, .delivering notice waiting] hcoherent hs rfl rfl rfl
      rfl rfl (fun hl => (hl.2.2.cons rfl rfl rfl).cons rfl rfl rfl) ?_ fun _ => rfl
    by_cases hx : isAttending x = true
    · simp [DiagnosticRelay.heard, Frame.owed, hx]
    · simp [DiagnosticRelay.heard, Frame.owed, hx]
  | handed hs => exact h.popped hcoherent hs rfl rfl rfl rfl fun _ => rfl
  | @update cycle u stack hs =>
    have hflag := h.isWatched_of_promised cycle.id hs (by simp [Frame.promised])
    have hopen := h.coherent.isDisposed_of_isWatched hflag
    refine h.top [.delivering (.update u) (c.recipients (.update u)), .recording cycle u]
      hcoherent hs rfl rfl rfl rfl rfl ?_ ?_ ?_
    · intro hl
      have hbelow := hl.1 (.inr rfl)
      exact Layered.cons ⟨fun _ => hbelow, rfl, hl.2.2⟩ rfl rfl rfl
    · simp [DiagnosticRelay.heard, Frame.owed, (h.attending hopen).recipients]
    · intro id
      by_cases hid : cycle.id = id
      · simp [Frame.promised, List.findSome?, hid]
      · simp [Frame.promised, List.findSome?, hid]
  | record hs hw =>
    rw [List.append_nil]
    exact h.record hs hw
  -- an update under way is of a watched document: passive listeners destroy nothing in between
  | @leave cycle u stack hs hw =>
    have hflag := h.isWatched_of_promised cycle.id hs (by simp [Frame.promised])
    cases hw.symm.trans hflag
  | @retract cycle u stack hs hw =>
    have hflag := h.isWatched_of_promised cycle.id hs (by simp [Frame.promised])
    cases hw.symm.trans hflag
  | finish hs => exact h.popped hcoherent hs rfl rfl rfl rfl fun _ => rfl
  | letGo hs =>
    exact h.top [] hcoherent hs (stack_releaseWatch _ _)
      (isHandleHeld_releaseWatch _ _) (isDisposed_releaseWatch _ _) (listeners_releaseWatch _ _)
      (tracker_releaseWatch _ _) (·.2.2) rfl fun _ => rfl
  | called hs => exact h.popped hcoherent hs rfl rfl rfl rfl fun _ => rfl
  | call hs =>
    have htaken := h.layered
    rw [hs] at htaken
    cases htaken.2.1
  | miss hs =>
    have htaken := h.layered
    rw [hs] at htaken
    cases htaken.2.1
  | @attach i x key stack hs hw =>
    obtain ⟨pending, n, hattach, hshown⟩ :=
      attach_of_isWatched (c.setStack stack) i x key hw
    have hnothing : DiagnosticRelay.heard ((c.setStack stack).attach i x key).2 = [] := by
      apply List.filterMap_eq_nil_iff.mpr
      intro e he
      obtain ⟨_, _, _, rfl⟩ := hshown e he
      rfl
    refine h.top [] hcoherent hs (stack_attach _ _ _ _) ?_ ?_ ?_ ?_ (·.2.2) ?_ fun _ => rfl
    · rw [hattach]
      exact isHandleHeld_releaseWatch _ _
    · rw [hattach]
      exact isDisposed_releaseWatch _ _
    · rw [hattach]
      exact listeners_releaseWatch _ _
    · rw [hattach]
      exact tracker_releaseWatch _ _
    · rw [hnothing]
      rfl
  | detach hs => exact h.popped hcoherent hs rfl rfl rfl rfl fun _ => rfl
  | reap hc hdead =>
    have halive : c.isAlive = true := by simp [isAlive, h.handle]
    cases hdead.symm.trans halive

end Follows

end Configuration

end DiagnosticRelay
