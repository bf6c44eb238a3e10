import DiagnosticRelay.Provider.Rest

/-!
# Courses

A run as it goes, piece by piece: a course is a sequence of passes, and a pass is a move, a piece of
work, or the taking back of watches that ends a step. A course remembers every configuration it
came through, those inside a step included, and what each pass showed. Moves are made only where
a step can begin, and a rule says which ones.

Every run is a course (`exists_course_run`), so what each pass keeps, every run keeps
(`run_invariant`).
-/

namespace DiagnosticRelay.Configuration

theorem getElem?_releaseWatches (c : Configuration) (i : DocumentIndex) :
    c.releaseWatches.documents[i]? = c.documents[i]?.map fun d =>
      { d with
        watches := d.watches.filter fun w => c.provider.watches w.id ≠ some ⟨i, w.key⟩ } := by
  simp [releaseWatches]

@[simp] theorem watches_releaseWatches (c : Configuration) (id : DocumentId) :
    c.releaseWatches.provider.watches id = none := rfl

/-- Without watches there is nothing to take back. -/
theorem releaseWatches_of_none {c : Configuration} (h : ∀ id, c.provider.watches id = none) :
    c.releaseWatches = c := by
  have hdocuments : c.releaseWatches.documents = c.documents := by
    apply List.ext_getElem?
    intro i
    rw [getElem?_releaseWatches]
    cases c.documents[i]? with
    | none => rfl
    | some d =>
      have hkept : (d.watches.filter fun w => c.provider.watches w.id ≠ some ⟨i, w.key⟩) =
          d.watches := List.filter_eq_self.mpr fun w _ => by simp [h]
      simp only [Option.map_some, hkept]
  have hwatches : (fun _ => none) = c.provider.watches := by
    funext id
    exact (h id).symm
  unfold releaseWatches at hdocuments ⊢
  dsimp only at hdocuments ⊢
  rw [hdocuments, hwatches]

theorem reap_of_isAlive {c : Configuration} (h : c.isAlive = true) : c.reap = c := by
  rw [reap, if_pos h]

theorem reap_of_not_isAlive {c : Configuration} (h : c.isAlive = false) :
    c.reap = c.releaseWatches := by
  rw [reap, if_neg (by simp [h])]

@[simp] theorem reap_reap (c : Configuration) : c.reap.reap = c.reap := by
  cases h : c.isAlive with
  | true => rw [reap_of_isAlive h, reap_of_isAlive h]
  | false =>
    rw [reap_of_not_isAlive h, reap_of_not_isAlive (c := c.releaseWatches) h]
    exact releaseWatches_of_none (watches_releaseWatches c)

theorem advance_eq_none_of_stack {c c' : Configuration} (h : c.stack = c'.stack)
    (hc : c.advance = none) : c'.advance = none := by
  rw [advance_eq_none_iff] at hc ⊢
  rw [← h]
  exact hc

theorem step_eq_settle (c : Configuration) (m : Move) : c.step m =
    ((c.begin m).1.settle.1.reap, (c.begin m).2 ++ (c.begin m).1.settle.2) := rfl

/-- A move after which no work is to be done is a step by itself. -/
theorem step_of_rest {c : Configuration} {m : Move}
    (h : (c.begin m).1.advance = none) :
    c.step m = ((c.begin m).1.reap, (c.begin m).2) := by
  rw [step_eq_settle, settle_of_rest h, List.append_nil]

/-- A step can begin: somebody else has to move, and no watch is left to be taken back. -/
structure Ready (c : Configuration) : Prop where
  rest : c.advance = none
  reaped : c.reap = c

theorem ready_new (settings : Settings) (documents : List Document) :
    (new settings documents).Ready := ⟨rfl, reap_of_isAlive rfl⟩

theorem ready_reap {c : Configuration} (h : c.advance = none) : c.reap.Ready :=
  ⟨advance_eq_none_of_stack (stack_reap c).symm h, reap_reap c⟩

theorem ready_step (c : Configuration) (m : Move) : (c.step m).1.Ready :=
  ready_reap (advance_settle _)

theorem ready_run {c : Configuration} (h : c.Ready) (ms : List Move) : (c.run ms).1.Ready := by
  induction ms generalizing c with
  | nil => exact h
  | cons m ms ih =>
    rw [run_cons]
    exact ih (ready_step c m)

/-- Every move of a run keeps to a rule. -/
def admits (rule : Configuration → Move → Bool) : Configuration → List Move → Bool
  | _, [] => true
  | c, m :: ms => rule c m && admits rule (c.step m).1 ms

theorem admits_cons {rule : Configuration → Move → Bool} {c : Configuration} {m : Move}
    {ms : List Move} :
    admits rule c (m :: ms) = true ↔ rule c m = true ∧ admits rule (c.step m).1 ms = true := by
  simp [admits]

/-- Without a rule every run is admitted. -/
theorem admits_all (c : Configuration) (ms : List Move) : admits (fun _ _ => true) c ms = true := by
  induction ms generalizing c with
  | nil => rfl
  | cons m ms ih => exact admits_cons.mpr ⟨rfl, ih _⟩

/-- A move, a piece of work, or the taking back of watches, with what it shows. -/
inductive Pass (rule : Configuration → Move → Bool) :
    Configuration → List Event → Configuration → Prop
  | move {c : Configuration} {m : Move} (hc : c.Ready) (hm : rule c m = true) :
    Pass rule c (c.begin m).2 (c.begin m).1
  | work {c c' : Configuration} {shown : List Event} (h : c.advance = some (c', shown)) :
    Pass rule c shown c'
  | reap {c : Configuration} (h : c.advance = none) : Pass rule c [] c.reap

/-- A sequence of passes, with the configurations they start from and what they show. -/
inductive Course (rule : Configuration → Move → Bool) (start : Configuration) :
    List (Configuration × List Event) → Configuration → Prop
  | nil : Course rule start [] start
  | snoc {past : List (Configuration × List Event)} {c c' : Configuration} {shown : List Event}
    (h : Course rule start past c) (hpass : Pass rule c shown c') :
    Course rule start (past ++ [(c, shown)]) c'

/-- What the passes of a course show, all together. -/
def shownBy (past : List (Configuration × List Event)) : List Event := past.flatMap Prod.snd

@[simp] theorem shownBy_nil : shownBy [] = [] := rfl

@[simp] theorem shownBy_append (past past' : List (Configuration × List Event)) :
    shownBy (past ++ past') = shownBy past ++ shownBy past' := by
  simp [shownBy]

@[simp] theorem shownBy_singleton (c : Configuration) (shown : List Event) :
    shownBy [(c, shown)] = shown := by
  simp [shownBy]

/-- What every piece of work keeps, the work up to the next callout keeps. -/
theorem settle_keeps {P : Configuration → List Event → Prop}
    (hadvance : ∀ {c es c' shown}, P c es → c.advance = some (c', shown) → P c' (es ++ shown))
    {c : Configuration} {es : List Event} (h : P c es) : P c.settle.1 (es ++ c.settle.2) := by
  unfold settle
  generalize weight c.stack = n
  induction n generalizing c es with
  | zero =>
    rw [settleWithin, List.append_nil]
    exact h
  | succ n ih =>
    cases hc : c.advance with
    | none =>
      rw [settleWithin_of_rest hc, List.append_nil]
      exact h
    | some result =>
      rw [settleWithin_succ hc, ← List.append_assoc]
      exact ih (hadvance h hc)

variable {rule : Configuration → Move → Bool} {start : Configuration}

/-- The work up to the next callout continues a course. -/
theorem exists_course_settle {past : List (Configuration × List Event)} {c : Configuration}
    (h : Course rule start past c) :
    ∃ past', Course rule start past' c.settle.1 ∧ shownBy past' = shownBy past ++ c.settle.2 := by
  apply settle_keeps (P := fun c es => ∃ past', Course rule start past' c ∧ shownBy past' = es)
  · intro c es c' shown ⟨past', hpast', hshown⟩ hadvance
    refine ⟨_, hpast'.snoc (.work hadvance), ?_⟩
    simp [hshown]
  · exact ⟨past, h, rfl⟩

/-- A step continues a course. -/
theorem exists_course_step {past : List (Configuration × List Event)} {c : Configuration} {m : Move}
    (h : Course rule start past c) (hc : c.Ready) (hm : rule c m = true) :
    ∃ past', Course rule start past' (c.step m).1 ∧
      shownBy past' = shownBy past ++ (c.step m).2 := by
  obtain ⟨past', hpast', hshown⟩ := exists_course_settle (h.snoc (.move hc hm))
  refine ⟨_, hpast'.snoc (.reap (advance_settle _)), ?_⟩
  simp [hshown, step]

/-- Every run that keeps to the rule is a course. -/
theorem exists_course_run {c : Configuration} {ms : List Move} (hc : c.Ready)
    (hms : admits rule c ms = true) :
    ∃ past, Course rule c past (c.run ms).1 ∧ shownBy past = (c.run ms).2 := by
  suffices hfrom : ∀ {past : List (Configuration × List Event)} {c' : Configuration},
      Course rule c past c' → c'.Ready → admits rule c' ms = true →
      ∃ past', Course rule c past' (c'.run ms).1 ∧
        shownBy past' = shownBy past ++ (c'.run ms).2 from hfrom .nil hc hms
  clear hc hms
  intro past c' h hc hms
  induction ms generalizing past c' with
  | nil => exact ⟨past, h, by simp⟩
  | cons m ms ih =>
    rw [admits_cons] at hms
    obtain ⟨past', hpast', hshown⟩ := exists_course_step h hc hms.1
    obtain ⟨past'', hpast'', hshown'⟩ := ih hpast' (ready_step c' m) hms.2
    refine ⟨past'', by rw [run_cons]; exact hpast'', ?_⟩
    rw [hshown', hshown, run_cons, List.append_assoc]

/-- What every pass keeps, a course keeps. -/
theorem Course.invariant {P : Configuration → List Event → Prop} (hstart : P start [])
    (hpass : ∀ {c es shown c'}, P c es → Pass rule c shown c' → P c' (es ++ shown))
    {past : List (Configuration × List Event)} {c : Configuration} (h : Course rule start past c) :
    P c (shownBy past) := by
  induction h with
  | nil => exact hstart
  | snoc h hp ih =>
    rw [shownBy_append, shownBy_singleton]
    exact hpass ih hp

/-- What every pass keeps, a run keeps. -/
theorem run_invariant {P : Configuration → List Event → Prop} {ms : List Move}
    (hready : start.Ready) (hms : admits rule start ms = true) (hstart : P start [])
    (hpass : ∀ {c es shown c'}, P c es → Pass rule c shown c' → P c' (es ++ shown)) :
    P (start.run ms).1 (start.run ms).2 := by
  obtain ⟨past, hpast, hshown⟩ := exists_course_run hready hms
  rw [← hshown]
  exact hpast.invariant hstart hpass

/-! ## Something to run on -/

/-- A saved document that nobody watches. -/
def savedDocument : Document :=
  ⟨⟨1⟩, some ⟨"/src/a.m"⟩, "a.m", "source.objc", [20], false, []⟩

/-- The compiler answers with one warning in a file. -/
def answerIn (file : String) : Move :=
  .answers (some (.result ⟨true, [⟨2, ⟨⟨file⟩, 0, 0⟩, none, "unused"⟩]⟩))

end DiagnosticRelay.Configuration
