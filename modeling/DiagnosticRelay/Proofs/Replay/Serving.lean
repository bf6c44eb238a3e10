import DiagnosticRelay.Proofs.Provider.Starting
import DiagnosticRelay.Replay

/-!
# A provider that serves one file

The moves of a replay, one after the other, on a provider with one document and a listener on each
channel: the document is compiled, its cycle polled and answered, and the listeners return. `Serves`
is what stays the same all the time, and `Stands` adds where the cycle is. There is one lemma for
each move: it says where the cycle stands next, and what the listeners are told.
-/

namespace DiagnosticRelay

/-- The document is open and shows the file. -/
structure Document.Shows (d : Document) (file : SourceFile) : Prop where
  id : d.id = file.id
  path : d.path = some file.path
  grammar : d.grammar = file.grammar
  lines : d.lines = file.lines
  live : d.isDestroyed = false

/-- A cycle for the file, which is the only document. -/
def SourceFile.cycle (file : SourceFile) (number : Nat) (isStarted : Bool) : Cycle :=
  ⟨number, 0, file.id, isStarted⟩

/-- What a listener is told by an event. -/
def Event.told? : Event → Option Notice
  | .called _ notice => some notice
  | _ => none

/-- What the listeners are told, all of them together. -/
def told (es : List Event) : List Notice := es.filterMap Event.told?

/-- Whether an event of the file has it compiled. -/
def isHeeded (settings : Settings) (file : SourceFile) (e : DocumentEvent) : Bool :=
  settings.handles file.grammar && (e ≠ .saved || settings.runOnSave)

namespace Configuration

/-- The provider serves the file to a listener on each channel, and has recorded the paths. -/
structure Serves (c : Configuration) (settings : Settings) (file : SourceFile)
    (paths : List Path) : Prop where
  settings : c.provider.settings = settings
  listeners : c.provider.listeners = ⟨2, [(2, ())], [(1, ())], false⟩
  isDisposed : c.provider.isDisposed = false
  isHandleHeld : c.isHandleHeld = true
  document : ∃ d, c.documents[0]? = some d ∧ d.Shows file
  tracked : c.provider.trackedPaths file.id = paths

/-- So many cycles have been started by now; some are pending and some work is in progress. -/
structure Stands (c : Configuration) (settings : Settings) (file : SourceFile) (paths : List Path)
    (n : Nat) (pending : List Cycle) (stack : List Frame) : Prop where
  serves : c.Serves settings file paths
  nextCycle : c.nextCycle = n
  /-- The first cycle flags the document. -/
  flagged : 0 < n → c.provider.tracker.isWatched file.id = true
  pending : c.pending = pending
  stack : c.stack = stack

/-- What is left of a cycle while a listener is told to clear the paths. -/
def clearing (cycle : Cycle) (paths : List Path) (u : Update) : List Frame :=
  [.calling 1 (.invalidation ⟨paths⟩), .delivering (.invalidation ⟨paths⟩) [], .updating cycle u]

/-- What is left of a cycle while a listener is told of its update. -/
def informing (cycle : Cycle) (u : Update) : List Frame :=
  [.calling 2 (.update u), .delivering (.update u) [], .recording cycle u]

variable {c c' : Configuration} {settings : Settings} {file : SourceFile}
  {paths cleared : List Path} {n k place : Nat} {pending : List Cycle} {stack : List Frame}
  {cycle : Cycle} {r : CompileResult} {u : Update} {notice : Notice} {e : DocumentEvent}
  {i : DocumentIndex} {d : Document} {id : DocumentId}

/-! ## The work of a cycle -/

theorem advance_of_stack_nil (hs : c.stack = []) : c.advance = none := by
  rw [advance_eq_none_iff, hs]
  nofun

theorem advance_of_calling {listener : ListenerId}
    (hs : c.stack = .calling listener notice :: stack) : c.advance = none := by
  rw [advance_eq_none_iff, hs]
  intro f hf
  obtain rfl := Option.some.inj hf
  rfl

/-- A notice that nobody waits for any more is passed over. -/
theorem settle_delivering_nil (c : Configuration) (notice : Notice) (stack : List Frame) :
    (c.setStack (.delivering notice [] :: stack)).settle = (c.setStack stack).settle := by
  have hadvance : (c.setStack (.delivering notice [] :: stack)).advance =
      some (c.setStack stack, []) := rfl
  rw [settle_of_advance hadvance]
  rfl

theorem settle_delivering {listener : ListenerId} {waiting : List ListenerId}
    (hs : c.stack = .delivering notice (listener :: waiting) :: stack) :
    c.settle = (c.setStack (.calling listener notice :: .delivering notice waiting :: stack),
      [.called listener notice]) := by
  have hadvance : c.advance =
      some (c.setStack (.calling listener notice :: .delivering notice waiting :: stack),
        [.called listener notice]) := by
    rw [advance, hs]
    rfl
  exact settle_eq hadvance (advance_of_calling rfl)

theorem advance_updating (hs : c.stack = .updating cycle u :: stack) :
    c.advance = some (c.setStack (.delivering (.update u) (c.recipients (.update u)) ::
      .recording cycle u :: stack), [.published (.cycle cycle.number cycle.id) (.update u)]) := by
  rw [advance, hs]
  rfl

theorem advance_recording (hs : c.stack = .recording cycle u :: stack)
    (hw : c.provider.tracker.isWatched cycle.id = true) :
    c.advance = some ((c.setTracker (c.provider.tracker.record cycle.id u.paths)).setStack
      (.finishing cycle u.paths.length :: stack), []) := by
  have hkeep : (c.setStack stack).keepPaths cycle u =
      ((c.setTracker (c.provider.tracker.record cycle.id u.paths)).setStack
        (.finishing cycle u.paths.length :: stack), []) := if_pos hw
  rw [advance, hs]
  exact congrArg some hkeep

theorem advance_finishing {files : Nat} (hs : c.stack = .finishing cycle files :: stack) :
    c.advance = some (c.setStack stack, finished (.published cycle.id files)) := by
  rw [advance, hs]
  rfl

/-- A cycle that has nothing left to publish records its paths and ends. -/
theorem settle_recording (hs : c.stack = [.recording cycle u])
    (hw : c.provider.tracker.isWatched cycle.id = true) :
    c.settle = ((c.setTracker (c.provider.tracker.record cycle.id u.paths)).setStack [],
      finished (.published cycle.id u.paths.length)) := by
  rw [settle_of_advance (advance_recording hs hw), settle_of_advance (advance_finishing rfl),
    settle_of_rest (advance_of_stack_nil rfl)]
  rfl

/-! ## What stays the same -/

namespace Serves

theorem congr (h : c.Serves settings file paths) (hprovider : c'.provider = c.provider)
    (hhandle : c'.isHandleHeld = c.isHandleHeld) (hdocuments : c'.documents = c.documents) :
    c'.Serves settings file paths := by
  constructor
  case settings => rw [hprovider, h.settings]
  case listeners => rw [hprovider, h.listeners]
  case isDisposed => rw [hprovider, h.isDisposed]
  case isHandleHeld => rw [hhandle, h.isHandleHeld]
  case document => rw [hdocuments]; exact h.document
  case tracked => rw [hprovider, h.tracked]

theorem setTracker (h : c.Serves settings file paths) {t : Tracker} {paths' : List Path}
    (ht : (t.recorded file.id).getD [] = paths') : (c.setTracker t).Serves settings file paths' :=
  ⟨h.settings, h.listeners, h.isDisposed, h.isHandleHeld, h.document, ht⟩

/-- A document that shows the file may be changed into another one that does. -/
theorem updateDocument (h : c.Serves settings file paths) (i : DocumentIndex)
    {f : Document → Document} (hf : ∀ d : Document, d.Shows file → (f d).Shows file) :
    (c.updateDocument i f).Serves settings file paths := by
  refine ⟨h.settings, h.listeners, h.isDisposed, h.isHandleHeld, ?_, h.tracked⟩
  obtain ⟨d, hd, hshows⟩ := h.document
  rw [getElem?_updateDocument, hd]
  split
  · exact ⟨f d, rfl, hf d hshows⟩
  · exact ⟨d, rfl, hshows⟩

theorem setWatch (h : c.Serves settings file paths) (id : DocumentId) (ref : Option WatchRef) :
    (c.setWatch id ref).Serves settings file paths :=
  ⟨h.settings, h.listeners, h.isDisposed, h.isHandleHeld, h.document, h.tracked⟩

theorem releaseWatch (h : c.Serves settings file paths) (id : DocumentId) :
    (c.releaseWatch id).Serves settings file paths := by
  unfold Configuration.releaseWatch
  split
  · exact h
  · next ref _ =>
    have hshows (d : Document) (hd : d.Shows file) : (d.unwatch ref.key).Shows file :=
      ⟨hd.id, hd.path, hd.grammar, hd.lines, hd.live⟩
    exact (h.updateDocument ref.document hshows).setWatch id none

theorem isAlive (h : c.Serves settings file paths) : c.isAlive = true := by
  simp [Configuration.isAlive, h.isHandleHeld]

theorem recipients_update (h : c.Serves settings file paths) (u : Update) :
    c.recipients (.update u) = [2] := by
  rw [recipients, h.listeners]
  rfl

theorem recipients_invalidation (h : c.Serves settings file paths) (i : Invalidation) :
    c.recipients (.invalidation i) = [1] := by
  rw [recipients, h.listeners]
  rfl

/-- A move that begins a piece of work ends where the work does. -/
theorem step_eq {m : Move} {b : Configuration} {shown more : List Event}
    (h : c'.Serves settings file paths) (hbegin : c.begin m = (b, shown))
    (hsettle : b.settle = (c', more)) : c.step m = (c', shown ++ more) := by
  rw [step_eq_settle, hbegin, hsettle, reap_of_isAlive h.isAlive]

/-- An update is published to its listener. -/
theorem settle_updating (h : c.Serves settings file paths) (hs : c.stack = [.updating cycle u]) :
    c.settle = (c.setStack (informing cycle u),
      [.published (.cycle cycle.number cycle.id) (.update u), .called 2 (.update u)]) := by
  rw [settle_of_advance (advance_updating hs), h.recipients_update, settle_delivering rfl]
  rfl

/-- Which events begin a compile. -/
theorem begin_event (h : c.Serves settings file paths) (e : DocumentEvent) :
    c.begin (.event 0 e) = if isHeeded settings file e then c.trigger 0 else (c, []) := by
  obtain ⟨d, hd, hshows⟩ := h.document
  have hignored : (! c.isHandleHeld || (e = .saved && ! c.provider.settings.runOnSave) ||
      ! c.provider.settings.handles d.grammar) = ! isHeeded settings file e := by
    rw [h.isHandleHeld, h.settings, hshows.grammar, isHeeded]
    cases settings.handles file.grammar <;> cases settings.runOnSave <;> cases e <;> rfl
  simp only [begin, hd, hignored]
  cases isHeeded settings file e <;> rfl

/-- With nothing else to do, a cycle that is started is the only one pending. -/
theorem startCycle (h : c.Serves settings file paths) (hn : c.nextCycle = n)
    (hp : c.pending = []) (hs : c.stack = []) (hw : c.provider.tracker.isWatched file.id = true)
    (hshows : d.Shows file) :
    (c.startCycle 0 d).1.Stands settings file paths (n + 1) [file.cycle n false] [] := by
  refine ⟨h.congr rfl rfl rfl, congrArg (· + 1) hn, fun _ => hw, ?_, hs⟩
  show c.pending ++ [⟨c.nextCycle, 0, d.id, false⟩] = _
  rw [hn, hp, hshows.id]
  rfl

/-- A watch that has been put on the document is kept, and the cycle is started. -/
theorem settle_attaching (h : c.Serves settings file paths) (hn : c.nextCycle = n)
    (hp : c.pending = []) {key : Nat} (hs : c.stack = [.attaching 0 file.id key])
    (hw : c.provider.tracker.isWatched file.id = true) :
    c.settle.1.Stands settings file paths (n + 1) [file.cycle n false] [] ∧
      told c.settle.2 = [] := by
  have hbelow : (c.setStack []).Serves settings file paths := h.congr rfl rfl rfl
  have hreleased := hbelow.releaseWatch file.id
  obtain ⟨d, hd, hshows⟩ := hreleased.document
  have hadvance : c.advance = some ((c.setStack []).attach 0 file.id key) := by
    rw [advance, hs]
    rfl
  rw [attach_of_document (c := c.setStack []) hw hd] at hadvance
  have hwatched : ((c.setStack []).releaseWatch file.id).provider.tracker.isWatched file.id =
      true := by
    rw [tracker_releaseWatch]
    exact hw
  have hstands := (hreleased.setWatch file.id (some ⟨0, key⟩)).startCycle
    ((nextCycle_releaseWatch _ _).trans hn) ((pending_releaseWatch _ _).trans hp)
    (stack_releaseWatch _ _) hwatched hshows
  rw [settle_eq hadvance (advance_of_stack_nil hstands.stack)]
  exact ⟨hstands, rfl⟩

end Serves

/-! ## Where a cycle stands -/

namespace Stands

/-- An event that has the file compiled starts a cycle. -/
theorem step_event (h : c.Stands settings file paths n [] []) (he : isHeeded settings file e) :
    (c.step (.event 0 e)).1.Stands settings file paths (n + 1) [file.cycle n false] [] ∧
      told (c.step (.event 0 e)).2 = [] := by
  have hbegin := h.serves.begin_event e
  rw [if_pos he] at hbegin
  obtain ⟨d, hd, hshows⟩ := h.serves.document
  have hpath : d.path.isNone = false := by rw [hshows.path]; rfl
  cases hw : c.provider.tracker.isWatched d.id with
  | true =>
    rw [trigger_of_isWatched hd h.serves.isDisposed hpath hw] at hbegin
    have hstands := h.serves.startCycle h.nextCycle h.pending h.stack (hshows.id ▸ hw) hshows
    rw [hstands.serves.step_eq hbegin (settle_of_rest (advance_of_stack_nil hstands.stack))]
    exact ⟨hstands, rfl⟩
  | false =>
    -- The watch is put on the document, kept at once, and only then the cycle is started.
    rw [trigger_of_not_isWatched hd h.serves.isDisposed hpath hshows.live hw] at hbegin
    have hwatch (d' : Document) (hd' : d'.Shows file) :
        (d'.watch ⟨c.nextKey, d.id⟩).Shows file :=
      ⟨hd'.id, hd'.path, hd'.grammar, hd'.lines, hd'.live⟩
    have hflag : (c.flag 0 d).Serves settings file paths :=
      ⟨h.serves.settings, h.serves.listeners, h.serves.isDisposed, h.serves.isHandleHeld,
        h.serves.document, h.serves.tracked⟩
    have hattaching : (c.flag 0 d).stack = [.attaching 0 file.id c.nextKey] := by
      rw [← hshows.id, ← h.stack]
      rfl
    have hflagged : (c.flag 0 d).provider.tracker.isWatched file.id = true := by
      simp [flag, setTracker, hshows.id]
    obtain ⟨hstands, htold⟩ := (hflag.updateDocument 0 hwatch).settle_attaching h.nextCycle
      h.pending hattaching hflagged
    rw [hstands.serves.step_eq hbegin rfl]
    exact ⟨hstands, htold⟩

/-- Any other event does nothing. -/
theorem step_event_of_not_isHeeded (h : c.Stands settings file paths n [] [])
    (he : isHeeded settings file e = false) : c.step (.event 0 e) = (c, []) := by
  have hbegin := h.serves.begin_event e
  rw [he] at hbegin
  exact h.serves.step_eq hbegin (settle_of_rest (advance_of_stack_nil h.stack))

/-- The pending cycle is polled, and asks the compiler. -/
theorem step_poll (h : c.Stands settings file paths n [file.cycle k false] []) :
    (c.step (.poll 0)).1.Stands settings file paths n [] [.asking (file.cycle k true) 0] ∧
      told (c.step (.poll 0)).2 = [] := by
  have hbegin : c.begin (.poll 0) = (({ c with pending := [] } : Configuration).setStack
      [.asking (file.cycle k true) 0], [.asked k file.id true]) := by
    rw [begin, h.pending]
    simp [push, h.stack, SourceFile.cycle, Configuration.setStack]
  have hstands : (({ c with pending := [] } : Configuration).setStack
      [.asking (file.cycle k true) 0]).Stands settings file paths n []
        [.asking (file.cycle k true) 0] :=
    ⟨h.serves.congr rfl rfl rfl, h.nextCycle, h.flagged, rfl, rfl⟩
  rw [hstands.serves.step_eq hbegin (settle_of_rest rfl)]
  exact ⟨hstands, rfl⟩

/-- An answer of which no messages can be made ends the cycle. -/
theorem step_answers_error {e : BuildError}
    (h : c.Stands settings file paths (n + 1) [] [.asking (file.cycle k true) place])
    (hr : messagesOf r (some file.path) file.lines = .error e) :
    (c.step (.answers (some (.result r)))).1.Stands settings file paths (n + 1) [] [] ∧
      told (c.step (.answers (some (.result r)))).2 = [] := by
  obtain ⟨d, hd, hshows⟩ := h.serves.document
  rw [← hshows.path, ← hshows.lines] at hr
  have hfruitless : (c.setStack []).Fruitless (file.cycle k true) (.result r) (some (.build e)) :=
    .broken h.serves.isDisposed (h.flagged (Nat.succ_pos n)) hd (messagesOf_eq_error_iff.mp hr)
  have hbegin := begin_answers h.stack (.result r)
  rw [hfruitless.receive] at hbegin
  have hstands : (c.setStack []).Stands settings file paths (n + 1) [] [] :=
    ⟨h.serves.congr rfl rfl rfl, h.nextCycle, h.flagged, h.pending, rfl⟩
  rw [hstands.serves.step_eq hbegin (settle_of_rest rfl)]
  exact ⟨hstands, rfl⟩

/-- An answer of which messages are made, with the paths that are recorded. -/
theorem begin_answers
    (h : c.Stands settings file paths (n + 1) [] [.asking (file.cycle k true) place])
    (hr : messagesOf r (some file.path) file.lines = .ok u) :
    c.begin (.answers (some (.result r))) =
      (((c.setStack []).setTracker (c.provider.tracker.invalidate file.id).2).push
        (.updating (file.cycle k true) u)).publishSome (.cycle k file.id)
          (if paths = [] then none else some ⟨paths⟩) := by
  obtain ⟨d, hd, hshows⟩ := h.serves.document
  rw [← hshows.path, ← hshows.lines] at hr
  rw [← h.serves.tracked]
  exact begin_answers_ok h.stack h.serves.isDisposed (h.flagged (Nat.succ_pos n)) hd hr

/-- Once the recorded paths have been taken back, none are recorded. -/
theorem serves_invalidate (h : c.Stands settings file paths n pending stack) (stack' : List Frame) :
    (((c.setStack []).setTracker (c.provider.tracker.invalidate file.id).2).setStack
      stack').Stands settings file [] n pending stack' := by
  have hnone : ((c.provider.tracker.invalidate file.id).2.recorded file.id).getD [] = [] := by
    rw [Tracker.recorded_invalidate, if_pos rfl]
    rfl
  have hserves : (c.setStack []).Serves settings file paths := h.serves.congr rfl rfl rfl
  refine ⟨(hserves.setTracker hnone).congr rfl rfl rfl, h.nextCycle, ?_, h.pending, rfl⟩
  intro hpos
  show (c.provider.tracker.invalidate file.id).2.isWatched file.id = true
  rw [Tracker.isWatched_invalidate]
  exact h.flagged hpos

/-- An answer of which messages are made first has the recorded paths cleared. -/
theorem step_answers_clearing (hne : paths ≠ [])
    (h : c.Stands settings file paths (n + 1) [] [.asking (file.cycle k true) place])
    (hr : messagesOf r (some file.path) file.lines = .ok u) :
    (c.step (.answers (some (.result r)))).1.Stands settings file [] (n + 1) []
        (clearing (file.cycle k true) paths u) ∧
      told (c.step (.answers (some (.result r)))).2 = [.invalidation ⟨paths⟩] := by
  have hbegin := h.begin_answers hr
  rw [if_neg hne] at hbegin
  have hstands := h.serves_invalidate (clearing (file.cycle k true) paths u)
  have hwaiting : [Frame.delivering (.invalidation ⟨paths⟩) (c.recipients (.invalidation ⟨paths⟩)),
      .updating (file.cycle k true) u] =
        [.delivering (.invalidation ⟨paths⟩) [1], .updating (file.cycle k true) u] := by
    rw [h.serves.recipients_invalidation]
  rw [hstands.serves.step_eq hbegin (settle_delivering hwaiting)]
  exact ⟨hstands, rfl⟩

/-- With no paths recorded the update is published at once. -/
theorem step_answers_informing
    (h : c.Stands settings file [] (n + 1) [] [.asking (file.cycle k true) place])
    (hr : messagesOf r (some file.path) file.lines = .ok u) :
    (c.step (.answers (some (.result r)))).1.Stands settings file [] (n + 1) []
        (informing (file.cycle k true) u) ∧
      told (c.step (.answers (some (.result r)))).2 = [.update u] := by
  have hbegin := h.begin_answers hr
  rw [if_pos rfl] at hbegin
  have hupdating := h.serves_invalidate [.updating (file.cycle k true) u]
  have hstands := h.serves_invalidate (informing (file.cycle k true) u)
  rw [hstands.serves.step_eq hbegin (hupdating.serves.settle_updating rfl)]
  exact ⟨hstands, rfl⟩

theorem setStack (h : c.Stands settings file paths n pending stack) (stack' : List Frame) :
    (c.setStack stack').Stands settings file paths n pending stack' :=
  ⟨h.serves.congr rfl rfl rfl, h.nextCycle, h.flagged, h.pending, rfl⟩

/-- Once the paths are cleared the update is published. -/
theorem step_returns_clearing (h : c.Stands settings file paths n []
    (clearing (file.cycle k true) cleared u)) :
    (c.step .returns).1.Stands settings file paths n [] (informing (file.cycle k true) u) ∧
      told (c.step .returns).2 = [.update u] := by
  have hbegin : c.begin .returns = (c.setStack [.delivering (.invalidation ⟨cleared⟩) [],
      .updating (file.cycle k true) u], []) := by
    rw [begin, h.stack]
    rfl
  have hsettle := (settle_delivering_nil c (.invalidation ⟨cleared⟩)
    [.updating (file.cycle k true) u]).trans ((h.setStack _).serves.settle_updating rfl)
  have hstands := h.setStack (informing (file.cycle k true) u)
  rw [hstands.serves.step_eq hbegin hsettle]
  exact ⟨hstands, rfl⟩

/-- Once its update has been told of, a cycle records the paths and ends. -/
theorem step_returns_informing (h : c.Stands settings file paths (n + 1) []
    (informing (file.cycle k true) u)) (hu : Path.Distinct u.paths) :
    (c.step .returns).1.Stands settings file u.paths (n + 1) [] [] ∧
      told (c.step .returns).2 = [] := by
  have hbegin : c.begin .returns = (c.setStack [.delivering (.update u) [],
      .recording (file.cycle k true) u], []) := by
    rw [begin, h.stack]
    rfl
  have hrecorded :
      ((c.provider.tracker.record file.id u.paths).recorded file.id).getD [] = u.paths := by
    rw [Tracker.getD_recorded_record _ hu, if_pos rfl]
  have hwatched := h.flagged (Nat.succ_pos n)
  have hsettle := (settle_delivering_nil c (.update u) [.recording (file.cycle k true) u]).trans
    (settle_recording (c := c.setStack [.recording (file.cycle k true) u]) rfl hwatched)
  have hserves : ((c.setTracker (c.provider.tracker.record file.id u.paths)).setStack []).Serves
      settings file u.paths := (h.serves.setTracker hrecorded).congr rfl rfl rfl
  rw [hserves.step_eq hbegin hsettle]
  refine ⟨⟨hserves, h.nextCycle, ?_, h.pending, rfl⟩, rfl⟩
  intro _
  show (c.provider.tracker.record file.id u.paths).isWatched file.id = true
  rw [Tracker.isWatched_record, hwatched]

/-- Disposing of the provider tells nobody anything, and starts nothing. -/
theorem step_dispose (h : c.Stands settings file paths n pending []) :
    (c.step .dispose).1.nextCycle = n ∧ told (c.step .dispose).2 = [] := by
  have hbegin : c.begin .dispose = (c.disposed, [.logged .disposed]) := by
    simp only [begin, h.serves.isHandleHeld, h.serves.isDisposed]
    rfl
  have hrest : (c.begin .dispose).1.advance = none := by
    rw [hbegin]
    exact advance_of_stack_nil h.stack
  have halive : c.disposed.isAlive = true := by
    simp [Configuration.isAlive, disposed, releaseWatches, h.serves.isHandleHeld]
  rw [step_of_rest hrest, hbegin, reap_of_isAlive halive]
  exact ⟨h.nextCycle, rfl⟩

end Stands

end Configuration

end DiagnosticRelay
