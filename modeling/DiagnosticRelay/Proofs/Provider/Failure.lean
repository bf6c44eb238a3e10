import DiagnosticRelay.Proofs.Building
import DiagnosticRelay.Proofs.Provider.Asking

/-!
# Cycles that come to nothing

The compiler may fail, or have no result; the provider may be disposed of or the document gone by
the time a result arrives; and no messages can be made of a broken result. In each of these cases
the cycle logs its end and leaves everything else as it was (`Failsafe`): nobody is told anything,
the tracker, the watches and the listeners are the same, and so are the other cycles. The next
cycle of the document that does succeed invalidates the same paths as if the others had never been.

This is so in whatever state a cycle resumes, with other work suspended beneath it, because the
compiler is asked only where no work is left to be done: when a failed cycle is over, whoever polled
it is next to move.
-/

namespace DiagnosticRelay

/-- What a cycle that comes to nothing logs about it, for a cause or without one. -/
def verdict (id : DocumentId) : Option CycleError → Report
  | none => .discarded id
  | some e => .failed id e

theorem level_verdict (id : DocumentId) (cause : Option CycleError) :
    (verdict id cause).level = if cause.isSome then .error else .debug := by
  cases cause <;> rfl

/-- Whether somebody is told something. -/
def Event.isTelling : Event → Bool
  | .published .. | .called .. => true
  | _ => false

namespace Configuration

variable {c c' : Configuration} {shown : List Event}

/-! ## What becomes of an answer -/

/-- How an answer to a cycle comes to nothing, with the cause if there is one to name. -/
inductive Fruitless (c : Configuration) (cycle : Cycle) : Outcome → Option CycleError → Prop
  | failed (causes : List String) : Fruitless c cycle (.failed causes) (some (.compile causes))
  | nothing : Fruitless c cycle .nothing none
  | disposed (r : CompileResult) (h : c.provider.isDisposed = true) :
    Fruitless c cycle (.result r) none
  | unwatched (r : CompileResult) (h : c.provider.tracker.isWatched cycle.id = false) :
    Fruitless c cycle (.result r) none
  | broken {r : CompileResult} {d : Document} {e : BuildError}
    (hopen : c.provider.isDisposed = false) (hw : c.provider.tracker.isWatched cycle.id = true)
    (hd : c.documents[cycle.document]? = some d) (h : r.Broken d.path e) :
    Fruitless c cycle (.result r) (some (.build e))

variable {cycle : Cycle} {place : Nat} {stack : List Frame} {outcome : Outcome}
  {cause : Option CycleError}

theorem begin_answers (hs : c.stack = .asking cycle place :: stack) (outcome : Outcome) :
    c.begin (.answers (some outcome)) = (c.setStack stack).receive cycle outcome := by
  rw [begin, hs]
  rfl

theorem begin_answers_none (hs : c.stack = .asking cycle place :: stack) :
    c.begin (.answers none) = ({ c with
      stack, pending := c.pending.insertIdx (min place c.pending.length) cycle }, []) := by
  rw [begin, hs]

theorem Fruitless.receive (h : c.Fruitless cycle outcome cause) :
    c.receive cycle outcome = (c, finished (verdict cycle.id cause)) := by
  cases h with
  | failed causes => rfl
  | nothing => rfl
  | disposed r h => simp [Configuration.receive, h, verdict]
  | unwatched r h => simp [Configuration.receive, h, verdict]
  | @broken r d e hopen hw hd h =>
    have hbuild : messagesOf r d.path d.lines = .error e := messagesOf_eq_error_iff.mpr h
    simp [Configuration.receive, hopen, hw, hd, hbuild, verdict]

theorem Fruitless.setStack (h : c.Fruitless cycle outcome cause) (stack : List Frame) :
    (c.setStack stack).Fruitless cycle outcome cause := by
  cases h with
  | failed causes => exact .failed causes
  | nothing => exact .nothing
  | disposed r h => exact .disposed r h
  | unwatched r h => exact .unwatched r h
  | broken hopen hw hd h => exact .broken hopen hw hd h

/-- An answer for a document that is there comes to nothing, or it is a result of which messages are
made, for a provider not disposed of and an identity still watched. -/
theorem fruitless_or {d : Document} (hd : c.documents[cycle.document]? = some d)
    (outcome : Outcome) : (∃ cause, c.Fruitless cycle outcome cause) ∨
      ∃ r u, outcome = .result r ∧ messagesOf r d.path d.lines = .ok u ∧
        c.provider.isDisposed = false ∧ c.provider.tracker.isWatched cycle.id = true := by
  cases outcome with
  | failed causes => exact .inl ⟨_, .failed causes⟩
  | nothing => exact .inl ⟨_, .nothing⟩
  | result r =>
    cases hopen : c.provider.isDisposed with
    | true => exact .inl ⟨_, .disposed r hopen⟩
    | false =>
      cases hw : c.provider.tracker.isWatched cycle.id with
      | false => exact .inl ⟨_, .unwatched r hw⟩
      | true =>
        cases hbuild : messagesOf r d.path d.lines with
        | error e => exact .inl ⟨_, .broken hopen hw hd (messagesOf_eq_error_iff.mp hbuild)⟩
        | ok u => exact .inr ⟨r, u, rfl, hbuild, rfl, rfl⟩

/-- A fruitless answer ends its cycle, and that is all. -/
theorem Fruitless.begin (h : c.Fruitless cycle outcome cause)
    (hs : c.stack = .asking cycle place :: stack) :
    c.begin (.answers (some outcome)) =
      (c.setStack stack, finished (verdict cycle.id cause)) := by
  rw [begin_answers hs, (h.setStack stack).receive]

/-- So nothing is left to be done when the compiler's answer is over. -/
theorem advance_of_askedOver (h : AskedOver AtRest c.stack)
    (hs : c.stack = .asking cycle place :: stack) (hs' : c'.stack = stack) : c'.advance = none := by
  rw [hs] at h
  rw [advance_eq_none_iff, hs']
  exact h.1 rfl

/-- A result of which messages are made has the recorded paths cleared, if there are any, and goes
on to be published. -/
theorem begin_answers_ok (hs : c.stack = .asking cycle place :: stack)
    (hopen : c.provider.isDisposed = false) (hw : c.provider.tracker.isWatched cycle.id = true)
    {d : Document} (hd : c.documents[cycle.document]? = some d) {r : CompileResult} {u : Update}
    (hu : messagesOf r d.path d.lines = .ok u) :
    c.begin (.answers (some (.result r))) =
      (((c.setStack stack).setTracker (c.provider.tracker.invalidate cycle.id).2).push
        (.updating cycle u)).publishSome (.cycle cycle.number cycle.id)
          (if c.provider.trackedPaths cycle.id = [] then none
            else some ⟨c.provider.trackedPaths cycle.id⟩) := by
  have hinvalidation := c.provider.tracker.invalidate_fst cycle.id
  rw [begin_answers hs, Provider.trackedPaths, ← hinvalidation]
  simp only [receive, provider_setStack, documents_setStack, hopen, hw, hd, hu, Bool.not_true,
    Bool.or_false, Bool.false_eq_true, if_false]

/-- A result of which messages can be made has the recorded paths cleared first. -/
theorem published_answers (hs : c.stack = .asking cycle place :: stack)
    (hopen : c.provider.isDisposed = false) (hw : c.provider.tracker.isWatched cycle.id = true)
    {d : Document} (hd : c.documents[cycle.document]? = some d) {r : CompileResult} {u : Update}
    (hu : messagesOf r d.path d.lines = .ok u) (hpaths : c.provider.trackedPaths cycle.id ≠ []) :
    ∃ more, (c.step (.answers (some (.result r)))).2 =
      .published (.cycle cycle.number cycle.id)
        (.invalidation ⟨c.provider.trackedPaths cycle.id⟩) :: more := by
  have hbegin := begin_answers_ok hs hopen hw hd hu
  rw [if_neg hpaths] at hbegin
  rw [step_eq_settle, hbegin]
  exact ⟨_, rfl⟩

/-! ## Moves that finish nothing -/

/-- A move of those who trigger, poll and edit, none of which brings a cycle to its end with an
update. -/
inductive Futile (c : Configuration) : Move → Prop
  | poll (place : Nat) : Futile c (.poll place)
  | wait : Futile c (.answers none)
  | answer {cycle : Cycle} {place : Nat} {stack : List Frame} {outcome : Outcome}
    {cause : Option CycleError} (hs : c.stack = .asking cycle place :: stack)
    (h : c.Fruitless cycle outcome cause) : Futile c (.answers (some outcome))
  | abandon (place : Nat) : Futile c (.abandon place)
  | run {i : DocumentIndex}
    (h : ∀ d, c.documents[i]? = some d → c.provider.tracker.isWatched d.id = true) :
    Futile c (.run i)
  | edit (i : DocumentIndex) (e : Edit) : Futile c (.edit i e)

/-- Every move of a run finishes nothing. -/
def AllFutile : Configuration → List Move → Prop
  | _, [] => True
  | c, m :: ms => c.Futile m ∧ AllFutile (c.step m).1 ms

/-- Nothing has changed that the next update depends on, and nobody was told anything. -/
structure Untouched (c : Configuration) (shown : List Event) (c' : Configuration) : Prop where
  tracker : c'.provider.tracker = c.provider.tracker
  listeners : c'.provider.listeners = c.provider.listeners
  isDisposed : c'.provider.isDisposed = c.provider.isDisposed
  watches : c'.isAlive = true → c'.provider.watches = c.provider.watches
  told : ∀ e ∈ shown, e.isTelling = false

/-- Whatever comes to nothing leaves everything else as it was. -/
structure Failsafe (c : Configuration) : Prop where
  /-- A fruitless answer ends its cycle and logs why; no watch is taken back unless the provider's
  state goes with the cycle. -/
  answer : ∀ {cycle : Cycle} {place : Nat} {stack : List Frame} {outcome : Outcome}
    {cause : Option CycleError}, c.stack = .asking cycle place :: stack →
    c.Fruitless cycle outcome cause →
    c.begin (.answers (some outcome)) =
      (c.setStack stack, [.logged .timed, .logged (verdict cycle.id cause)]) ∧
    c.step (.answers (some outcome)) =
      ((c.setStack stack).reap, [.logged .timed, .logged (verdict cycle.id cause)]) ∧
    (verdict cycle.id cause).level = if cause.isSome then .error else .debug
  /-- A cycle without an answer goes back to its place. -/
  wait : ∀ {cycle : Cycle} {place : Nat} {stack : List Frame},
    c.stack = .asking cycle place :: stack →
    c.step (.answers none) =
      ({ c with stack, pending := c.pending.insertIdx (min place c.pending.length) cycle }, [])
  /-- Abandoning a cycle takes it out of the queue. -/
  abandon : ∀ place : Nat,
    c.step (.abandon place) = ({ c with pending := c.pending.eraseIdx place }.reap, [])
  /-- So nothing that comes to nothing shows later. -/
  untouched : ∀ {ms : List Move}, c.AllFutile ms → c.Untouched (c.run ms).2 (c.run ms).1
  /-- The next update of a document follows the invalidation that was due before. -/
  later : ∀ {ms : List Move} {cycle : Cycle} {place : Nat} {stack : List Frame} {d : Document}
    {r : CompileResult} {u : Update}, c.AllFutile ms →
    (c.run ms).1.stack = .asking cycle place :: stack → c.provider.isDisposed = false →
    c.provider.tracker.isWatched cycle.id = true →
    (c.run ms).1.documents[cycle.document]? = some d → messagesOf r d.path d.lines = .ok u →
    c.provider.trackedPaths cycle.id ≠ [] →
    ∃ more, ((c.run ms).1.step (.answers (some (.result r)))).2 =
      .published (.cycle cycle.number cycle.id)
        (.invalidation ⟨c.provider.trackedPaths cycle.id⟩) :: more

theorem Untouched.refl (c : Configuration) : c.Untouched [] c :=
  ⟨rfl, rfl, rfl, fun _ => rfl, List.forall_mem_nil _⟩

theorem Untouched.trans {more : List Event} {c'' : Configuration} (h : c.Untouched shown c')
    (h' : c'.Untouched more c'') (halive : c''.isAlive = true → c'.isAlive = true) :
    c.Untouched (shown ++ more) c'' where
  tracker := h'.tracker.trans h.tracker
  listeners := h'.listeners.trans h.listeners
  isDisposed := h'.isDisposed.trans h.isDisposed
  watches hlast := (h'.watches hlast).trans (h.watches (halive hlast))
  told e he := (List.mem_append.mp he).elim (h.told e) (h'.told e)

/-- What a futile move does at once: it leaves the provider alone and no work to be done. -/
structure Idles (c : Configuration) (shown : List Event) (c' : Configuration) : Prop where
  provider : c'.provider = c.provider
  rest : c'.advance = none
  told : ∀ e ∈ shown, e.isTelling = false

theorem Idles.refl (hc : c.advance = none) : c.Idles [] c := ⟨rfl, hc, List.forall_mem_nil _⟩

/-- Compiling a document that is watched already only starts a cycle. -/
theorem idles_trigger (hc : c.advance = none) {i : DocumentIndex}
    (h : ∀ d, c.documents[i]? = some d → c.provider.tracker.isWatched d.id = true) :
    c.Idles (c.trigger i).2 (c.trigger i).1 := by
  unfold trigger
  cases hd : c.documents[i]? with
  | none => exact .refl hc
  | some d =>
    have hw := h d hd
    dsimp only
    split
    · exact .refl hc
    · split
      · exact ⟨rfl, hc, by simp [Event.isTelling]⟩
      · simp only [Tracker.watch, hw, Bool.not_true]
        refine ⟨rfl, advance_eq_none_of_stack (c := c) rfl hc, ?_⟩
        simp [startCycle, Event.isTelling]

theorem told_finished (r : Report) : ∀ e ∈ finished r, e.isTelling = false := by
  simp [finished, Event.isTelling]

theorem Futile.idles {m : Move} (h : c.Futile m) (hc : c.advance = none)
    (hasked : AskedOver AtRest c.stack) : c.Idles (c.begin m).2 (c.begin m).1 := by
  cases h with
  | poll place =>
    rw [begin]
    split
    · exact .refl hc
    · exact ⟨rfl, rfl, by simp [Event.isTelling]⟩
  | wait =>
    cases hs : c.stack with
    | nil =>
      rw [begin, hs]
      exact .refl hc
    | cons f stack =>
      cases f with
      | asking cycle place =>
        rw [begin_answers_none hs]
        exact ⟨rfl, advance_of_askedOver hasked hs rfl, List.forall_mem_nil _⟩
      | _ =>
        rw [begin, hs]
        exact .refl hc
  | answer hs h =>
    rw [h.begin hs]
    exact ⟨rfl, advance_of_askedOver hasked hs rfl, told_finished _⟩
  | abandon place =>
    exact ⟨rfl, advance_eq_none_of_stack (c := c) rfl hc, List.forall_mem_nil _⟩
  | run h =>
    rw [begin]
    split
    · exact idles_trigger hc h
    · exact .refl hc
  | edit i e => exact ⟨rfl, advance_eq_none_of_stack (c := c) rfl hc, List.forall_mem_nil _⟩

/-- So the whole step leaves the provider alone, but for its watches when it is done with. -/
theorem Idles.untouched {m : Move} (h : c.Idles (c.begin m).2 (c.begin m).1) :
    c.Untouched (c.step m).2 (c.step m).1 := by
  rw [step_of_rest h.rest]
  cases halive : (c.begin m).1.isAlive with
  | true =>
    rw [reap_of_isAlive halive]
    refine ⟨?_, ?_, ?_, fun _ => ?_, h.told⟩ <;> rw [h.provider]
  | false =>
    rw [reap_of_not_isAlive halive]
    refine ⟨?_, ?_, ?_, ?_, h.told⟩
    · show (c.begin m).1.provider.tracker = c.provider.tracker
      rw [h.provider]
    · show (c.begin m).1.provider.listeners = c.provider.listeners
      rw [h.provider]
    · show (c.begin m).1.provider.isDisposed = c.provider.isDisposed
      rw [h.provider]
    · exact fun halive' => absurd (halive.symm.trans halive') Bool.false_ne_true

/-- A run in which no cycle succeeds leaves the provider alone. -/
theorem AllFutile.untouched {ms : List Move} (h : c.AllFutile ms) (hc : c.advance = none)
    (hasked : ∀ ns, AskedOver AtRest (c.run ns).1.stack) :
    c.Untouched (c.run ms).2 (c.run ms).1 := by
  induction ms generalizing c with
  | nil => exact .refl c
  | cons m ms ih =>
    have hmore : ∀ ns, AskedOver AtRest ((c.step m).1.run ns).1.stack := by
      intro ns
      have hns := hasked (m :: ns)
      rwa [run_cons] at hns
    rw [run_cons]
    exact (h.1.idles hc (hasked [])).untouched.trans (ih h.2 (advance_step c m) hmore)
      (isAlive_of_run (ready_step c m))

/-- In every state that a run comes to, a cycle that comes to nothing leaves everything else as it
was. -/
theorem run_failsafe (settings : Settings) (documents : List Document) (ms : List Move) :
    ((new settings documents).run ms).1.Failsafe := by
  generalize hc : ((new settings documents).run ms).1 = c
  have hrest : c.advance = none := hc ▸ advance_run (ready_new settings documents).rest ms
  have hasked : ∀ ns, AskedOver AtRest (c.run ns).1.stack := by
    intro ns
    have h := askedOver_run settings documents (ms ++ ns)
    rwa [run_append, hc] at h
  constructor
  case answer =>
    intro cycle place stack outcome cause hs h
    have hbegin := h.begin hs
    have hstill : (c.begin (.answers (some outcome))).1.advance = none := by
      rw [hbegin]
      exact advance_of_askedOver (hasked []) hs rfl
    refine ⟨hbegin, ?_, level_verdict _ _⟩
    rw [step_of_rest hstill, hbegin]
    rfl
  case wait =>
    intro cycle place stack hs
    have hbegin := begin_answers_none hs
    have hstill : (c.begin (.answers none)).1.advance = none := by
      rw [hbegin]
      exact advance_of_askedOver (hasked []) hs rfl
    have hpending : c.pending.insertIdx (min place c.pending.length) cycle ≠ [] :=
      List.ne_nil_of_mem ((List.mem_insertIdx (Nat.min_le_right _ _)).mpr (.inl rfl))
    rw [step_of_rest hstill, hbegin, reap_of_isAlive (by simp [isAlive, hpending])]
  case abandon => exact fun place => step_of_rest (advance_eq_none_of_stack (c := c) rfl hrest)
  case untouched => exact fun h => h.untouched hrest hasked
  case later =>
    intro ns cycle place stack d r u h hs hopen hw hd hu hpaths
    have hsame := h.untouched hrest hasked
    have htracked : (c.run ns).1.provider.trackedPaths cycle.id =
        c.provider.trackedPaths cycle.id := by
      rw [Provider.trackedPaths, hsame.tracker]
      rfl
    rw [← htracked] at hpaths ⊢
    exact published_answers hs (hsame.isDisposed.trans hopen) (hsame.tracker ▸ hw) hd hu hpaths

/-- The first cycle of a document succeeds. -/
def firstPublished : List Move := [.run 0, .poll 0, answerIn "/src/b.h"]

/-- The next cycle is polled too early, then has a result that breaks off after a valid warning; the
one after that fails to compile, and the last is being asked for. -/
def failedMidway : List Move :=
  [.run 0, .poll 0, .answers none, .poll 0, .answers (some (.result ⟨true,
      [⟨2, ⟨⟨"/src/c.h"⟩, 0, 0⟩, none, "unused"⟩, ⟨3, ⟨⟨""⟩, 0, 0⟩, none, "expected ';'"⟩]⟩)),
    .run 0, .poll 0, .answers (some (.failed ["clang crashed"])), .run 0, .abandon 1, .poll 0]

theorem run_failsafe_failedMidway :
    ∃ more, (((new .default [savedDocument]).run (firstPublished ++ failedMidway)).1.step
      (answerIn "/src/d.h")).2 =
        .published (.cycle 3 ⟨1⟩) (.invalidation ⟨[⟨"/src/b.h"⟩]⟩) :: more := by
  have hfutile : ((new .default [savedDocument]).run firstPublished).1.AllFutile failedMidway := by
    refine ⟨.run ?_, .poll 0, .wait, .poll 0, .answer rfl (.broken rfl rfl rfl (.unplaced _ rfl)),
      .run ?_, .poll 0, .answer rfl (.failed _), .run ?_, .abandon 1, .poll 0, trivial⟩ <;>
    · rintro d hd
      obtain rfl := Option.some.inj hd
      rfl
  rw [run_append]
  exact (run_failsafe .default [savedDocument] firstPublished).later hfutile rfl rfl rfl rfl rfl
    (by decide)

end Configuration

end DiagnosticRelay
