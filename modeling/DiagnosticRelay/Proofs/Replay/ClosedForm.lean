import DiagnosticRelay.Proofs.Replay.Draining

/-!
# The closed form of a replay

What a replay tells its listeners can be said without a provider: `toldFor` goes through the results
with the paths that carried messages last, and a result of which no messages can be made leaves them
as they are. `noticesOf_eq` says that the replay comes to that, over the results that the settings
have it consider, and that it does so as one would expect: after every event the loop of turns ends
by itself with nothing left, and the compiler, asked once for each cycle, always has a result.

The induction is over the events. Between two of them nothing is in progress, so the replay is
determined by the paths recorded, the number of cycles started, the results left and the notices
told (`Stands`), and an event that is heeded takes exactly one result along (`Stands.event`).
-/

namespace DiagnosticRelay.Replay

/-- The results that are compiled from: all of them, the first if savings do not count, and none if
the file is not handled. -/
def considered (settings : Settings) (file : SourceFile) (results : List CompileResult) :
    List CompileResult :=
  if settings.handles file.grammar then
    if settings.runOnSave then results else results.take 1
  else []

/-- The paths that carry messages after a result. -/
def pathsAfter (file : SourceFile) (paths : List Path) (r : CompileResult) : List Path :=
  match messagesOf r (some file.path) file.lines with
  | .ok u => u.paths
  | .error _ => paths

/-- What the listeners are told for a result. -/
def noticesFor (file : SourceFile) (paths : List Path) (r : CompileResult) : List Notice :=
  match messagesOf r (some file.path) file.lines with
  | .ok u => (if paths = [] then [] else [.invalidation ⟨paths⟩]) ++ [.update u]
  | .error _ => []

/-- What the listeners are told for results in turn. -/
def toldFor (file : SourceFile) : List Path → List CompileResult → List Notice
  | _, [] => []
  | paths, r :: rs => noticesFor file paths r ++ toldFor file (pathsAfter file paths r) rs

/-- The replay serves the file; these results are left and these notices have been told. -/
structure Stands (r : Replay) (settings : Settings) (file : SourceFile) (paths : List Path)
    (n : Nat) (pending : List Cycle) (stack : List Frame) (results : List CompileResult)
    (notices : List Notice) : Prop where
  configuration : r.configuration.Stands settings file paths n pending stack
  results : r.results = results
  notices : r.notices = notices

variable {r r' : Replay} {settings : Settings} {file : SourceFile} {paths paths' : List Path}
  {n k m place : Nat} {pending : List Cycle} {stack : List Frame} {result : CompileResult}
  {results : List CompileResult} {u : Update} {notices shown : List Notice}
  {answers : List (Nat × Outcome)} {e : DocumentEvent}

namespace Stands

/-- A replay goes where its provider goes. -/
theorem move (h : r.Stands settings file paths n pending stack results notices) {m : Move}
    {n' : Nat} {pending' : List Cycle} {stack' : List Frame}
    (hstep : (r.configuration.step m).1.Stands settings file paths' n' pending' stack' ∧
      told (r.configuration.step m).2 = shown) :
    (r.move m).Stands settings file paths' n' pending' stack' results (notices ++ shown) where
  configuration := by
    rw [configuration_move]
    exact hstep.1
  results := (results_move r m).trans h.results
  notices := by rw [notices_move, h.notices, hstep.2]

theorem callouts (h : r.Stands settings file paths n pending stack results notices) :
    r.configuration.callouts = stack.filter Frame.isCallout := by
  rw [Configuration.callouts, h.configuration.stack]

theorem isDrained_eq (h : r.Stands settings file paths n pending stack results notices) :
    r.isDrained = ((stack.filter Frame.isCallout).isEmpty && pending.isEmpty) := by
  rw [isDrained, h.callouts, h.configuration.pending]

theorem isDrained (h : r.Stands settings file paths n [] [] results notices) :
    r.isDrained = true := h.isDrained_eq

/-! ## One turn more -/

/-- A listener that is being called returns. -/
theorem drains_returns {listener : ListenerId} {notice : Notice}
    (h : r.Stands settings file paths n pending (.calling listener notice :: stack) results notices)
    (hrest : Drains m (r.move .returns) answers r') : Drains (m + 1) r answers r' := by
  have hturn : r.turn = r.move .returns := by
    rw [turn, h.callouts]
    rfl
  have hanswering : r.answering? = none := by
    rw [answering?, h.callouts]
    rfl
  exact .turnTo h.isDrained_eq hturn hanswering hrest

/-- The compiler that is being asked answers with the next result. -/
theorem drains_answers {cycle : Cycle}
    (h : r.Stands settings file paths n pending (.asking cycle place :: stack) (result :: results)
      notices)
    (hrest : Drains m (({ r with results } : Replay).move (.answers (some (.result result))))
      answers r') : Drains (m + 1) r ((cycle.number, .result result) :: answers) r' := by
  have hanswer : answer r.title r.results = (.result result, results) := by rw [h.results]; rfl
  have hturn : r.turn = ({ r with results } : Replay).move (.answers (some (.result result))) := by
    rw [turn, h.callouts]
    simp only [List.filter_cons, Frame.isCallout, if_true, hanswer]
  have hanswering : r.answering? = some (cycle.number, .result result) := by
    rw [answering?, h.callouts]
    simp only [List.filter_cons, Frame.isCallout, if_true, hanswer]
  exact .turnTo h.isDrained_eq hturn hanswering hrest

/-- With nothing in progress the pending cycle is polled. -/
theorem drains_poll {cycle : Cycle}
    (h : r.Stands settings file paths n [cycle] [] results notices)
    (hrest : Drains m (r.move (.poll 0)) answers r') : Drains (m + 1) r answers r' := by
  have hturn : r.turn = r.move (.poll 0) := by
    rw [turn, h.callouts]
    rfl
  have hanswering : r.answering? = none := by
    rw [answering?, h.callouts]
    rfl
  exact .turnTo h.isDrained_eq hturn hanswering hrest

/-! ## The turns of a cycle, the last ones first -/

/-- From the call of the update's listener on. -/
theorem exists_drains_informing
    (h : r.Stands settings file paths (n + 1) [] (Configuration.informing (file.cycle k true) u)
      results notices) (hu : Path.Distinct u.paths) :
    ∃ r', Drains 1 r [] r' ∧ r'.Stands settings file u.paths (n + 1) [] [] results notices := by
  have hover := h.move (h.configuration.step_returns_informing hu)
  rw [List.append_nil] at hover
  exact ⟨_, h.drains_returns (.done hover.isDrained), hover⟩

/-- From the compiler's answer on. -/
theorem exists_drains_asking
    (h : r.Stands settings file paths (n + 1) [] [.asking (file.cycle k true) place]
      (result :: results) notices) :
    ∃ m ≤ 3, ∃ r', Drains m r [(k, .result result)] r' ∧
      r'.Stands settings file (pathsAfter file paths result) (n + 1) [] [] results
        (notices ++ noticesFor file paths result) := by
  have hleft : ({ r with results } : Replay).Stands settings file paths (n + 1) []
      [.asking (file.cycle k true) place] results notices := ⟨h.configuration, rfl, h.notices⟩
  unfold pathsAfter noticesFor
  cases hr : messagesOf result (some file.path) file.lines with
  | error e =>
    have hover := hleft.move (hleft.configuration.step_answers_error hr)
    exact ⟨1, by decide, _, h.drains_answers (.done hover.isDrained), hover⟩
  | ok u =>
    have hu := distinct_messagesOf hr
    by_cases hpaths : paths = []
    · subst hpaths
      have hinforming := hleft.move (hleft.configuration.step_answers_informing hr)
      obtain ⟨r', hdrains, hover⟩ := hinforming.exists_drains_informing hu
      exact ⟨2, by decide, r', h.drains_answers hdrains, hover⟩
    · have hclearing := hleft.move (hleft.configuration.step_answers_clearing hpaths hr)
      have hinforming := hclearing.move hclearing.configuration.step_returns_clearing
      obtain ⟨r', hdrains, hover⟩ := hinforming.exists_drains_informing hu
      rw [List.append_assoc] at hover
      dsimp only
      rw [if_neg hpaths]
      exact ⟨3, by decide, r', h.drains_answers (hclearing.drains_returns hdrains), hover⟩

/-- The whole cycle of an event. -/
theorem exists_drains_pending
    (h : r.Stands settings file paths (n + 1) [file.cycle k false] [] (result :: results) notices) :
    ∃ m ≤ 4, ∃ r', Drains m r [(k, .result result)] r' ∧
      r'.Stands settings file (pathsAfter file paths result) (n + 1) [] [] results
        (notices ++ noticesFor file paths result) := by
  have hasking := h.move h.configuration.step_poll
  rw [List.append_nil] at hasking
  obtain ⟨m, hm, r', hdrains, hover⟩ := hasking.exists_drains_asking
  exact ⟨m + 1, Nat.succ_le_succ hm, r', h.drains_poll hdrains, hover⟩

/-! ## Events -/

/-- An event that is heeded takes a result along. -/
theorem event (h : r.Stands settings file paths n [] [] (result :: results) notices)
    (he : isHeeded settings file e = true) :
    (r.event e).Stands settings file (pathsAfter file paths result) (n + 1) [] [] results
        (notices ++ noticesFor file paths result) ∧
      (r.move (.event 0 e)).answers = [(n, .result result)] ∧ (r.move (.event 0 e)).Ends := by
  have hpending := h.move (h.configuration.step_event he)
  rw [List.append_nil] at hpending
  obtain ⟨m, hm, r', hdrains, hover⟩ := hpending.exists_drains_pending
  have hbound : 4 * (r.move (.event 0 e)).configuration.pending.length = 4 := by
    rw [hpending.configuration.pending]
    rfl
  obtain ⟨hdrain, hanswers⟩ := hdrains.drain (hbound.symm ▸ hm)
  rw [Replay.event, hdrain]
  exact ⟨hover, hanswers⟩

/-- Any other event leaves everything as it is. -/
theorem event_of_not_isHeeded (h : r.Stands settings file paths n [] [] results notices)
    (he : isHeeded settings file e = false) :
    (r.event e).Stands settings file paths n [] [] results notices ∧
      (r.move (.event 0 e)).answers = [] ∧ (r.move (.event 0 e)).Ends := by
  have hstep := h.configuration.step_event_of_not_isHeeded he
  have hsame : (r.configuration.step (.event 0 e)).1.Stands settings file paths n [] [] ∧
      told (r.configuration.step (.event 0 e)).2 = [] := by
    rw [hstep]
    exact ⟨h.configuration, rfl⟩
  have hmoved := h.move hsame
  rw [List.append_nil] at hmoved
  obtain ⟨hdrain, hanswers⟩ := (Drains.done hmoved.isDrained).drain (Nat.zero_le _)
  rw [Replay.event, hdrain]
  exact ⟨hmoved, hanswers⟩

/-- Events take as many results along as are heeded of them. -/
theorem events (h : r.Stands settings file paths n [] [] results notices) {es : List DocumentEvent}
    (hes : es.countP (isHeeded settings file) = k) (hk : k ≤ results.length) :
    (es.foldl Replay.event r).Stands settings file ((results.take k).foldl (pathsAfter file) paths)
        (n + k) [] [] (results.drop k) (notices ++ toldFor file paths (results.take k)) ∧
      r.answersAfter es =
        ((results.take k).zipIdx n).map (fun (result, i) => (i, .result result)) ∧
      r.EndsAfter es := by
  induction es generalizing r paths n results notices k with
  | nil =>
    obtain rfl : 0 = k := hes
    refine ⟨?_, rfl, trivial⟩
    simpa [toldFor] using h
  | cons e es ih =>
    cases he : isHeeded settings file e with
    | false =>
      rw [List.countP_cons_of_neg (by simp [he])] at hes
      obtain ⟨hnext, hanswers, hends⟩ := h.event_of_not_isHeeded he
      obtain ⟨hlast, hmore, hendsAfter⟩ := ih hnext hes hk
      refine ⟨hlast, ?_, hends, hendsAfter⟩
      rw [answersAfter, hanswers, hmore, List.nil_append]
    | true =>
      rw [List.countP_cons_of_pos he] at hes
      subst hes
      cases results with
      | nil => cases hk
      | cons result results =>
        obtain ⟨hnext, hanswers, hends⟩ := h.event he
        obtain ⟨hlast, hmore, hendsAfter⟩ := ih hnext rfl (Nat.le_of_succ_le_succ hk)
        rw [List.append_assoc, Nat.add_right_comm, Nat.add_assoc] at hlast
        refine ⟨hlast, ?_, hends, hendsAfter⟩
        rw [answersAfter, hanswers, hmore]
        rfl

end Stands

/-! ## The whole replay -/

/-- Both listeners are registered before the first event. -/
theorem stands_start (settings : Settings) (file : SourceFile) (results : List CompileResult) :
    (start settings file results).Stands settings file [] 0 [] [] results [] := by
  have hshows : file.document.Shows file := ⟨rfl, rfl, rfl, rfl, rfl⟩
  have hserves : (start settings file results).configuration.Serves settings file [] :=
    ⟨rfl, rfl, rfl, rfl, ⟨_, rfl, hshows⟩, rfl⟩
  exact ⟨⟨hserves, rfl, nofun, rfl, rfl⟩, rfl, rfl⟩

/-- The events of a replay are heeded as often as results are considered. -/
theorem considered_eq (settings : Settings) (file : SourceFile) (results : List CompileResult) :
    considered settings file results =
      results.take ((eventsFor results.length).countP (isHeeded settings file)) := by
  unfold considered
  cases results with
  | nil => cases settings.handles file.grammar <;> cases settings.runOnSave <;> rfl
  | cons result results =>
    rw [List.length_cons, eventsFor, List.countP_cons, List.countP_replicate]
    cases hhandles : settings.handles file.grammar <;> cases hsave : settings.runOnSave <;>
      simp [isHeeded, hhandles, hsave]

theorem length_eventsFor (n : Nat) : (eventsFor n).length = n := by
  cases n <;> simp [eventsFor]

/-- The notices of a replay are its closed form. After every event the loop of turns ends by itself
with nothing left. Of the cycles that are started there is one for each result considered, and the
compiler, asked once for each of them in turn, answers with the result at the cycle's number, which
is the number of cycles started before it. -/
theorem noticesOf_eq (settings : Settings) (file : SourceFile) (results : List CompileResult) :
    noticesOf settings file results = toldFor file [] (considered settings file results) ∧
      (start settings file results).EndsAfter (eventsFor results.length) ∧
      (start settings file results).answersAfter (eventsFor results.length) =
        (considered settings file results).zipIdx.map (fun (result, i) => (i, .result result)) ∧
      (whole settings file results).configuration.nextCycle =
        (considered settings file results).length := by
  have hcount : (eventsFor results.length).countP (isHeeded settings file) ≤ results.length :=
    Nat.le_trans List.countP_le_length (Nat.le_of_eq (length_eventsFor _))
  obtain ⟨hlast, hanswers, hends⟩ := (stands_start settings file results).events rfl hcount
  rw [← considered_eq] at hlast hanswers
  obtain ⟨hnext, htold⟩ := hlast.configuration.step_dispose
  refine ⟨?_, hends, hanswers, ?_⟩
  · rw [noticesOf, whole, notices_move, hlast.notices, htold, List.append_nil, List.nil_append]
  · rw [whole, configuration_move, hnext, considered_eq, List.length_take, Nat.zero_add,
      Nat.min_eq_left hcount]

-- The second result breaks off; the third one still clears the paths of the first.
example : (noticesOf .default ⟨⟨1⟩, ⟨"/src/a.m"⟩, "source.objc", [20]⟩
    [⟨true, [⟨2, ⟨⟨"/src/b.h"⟩, 0, 0⟩, none, "unused"⟩]⟩,
      ⟨true, [⟨3, ⟨⟨""⟩, 0, 0⟩, none, "expected ';'"⟩]⟩, ⟨true, []⟩]).map Notice.channel =
        [.updates, .invalidations, .updates] := by rfl

end DiagnosticRelay.Replay
