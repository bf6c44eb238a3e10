import DiagnosticRelay.Provider.Work

/-!
# Coming to rest

Settling stops by itself: its bound on the pieces of work is never what ends it. Every piece of work
leaves a lighter stack, or one on which somebody else has to move (`weight_advance`). So settling is
determined by two equations without a bound, `settle_of_rest` and `settle_of_advance`, and every
move leaves a configuration at rest (`advance_step`): one with no frame or with a callout on top
(`advance_eq_none_iff`).
-/

namespace DiagnosticRelay.Configuration

@[simp] theorem weight_nil : weight [] = 0 := rfl

@[simp] theorem weight_cons (f : Frame) (stack : List Frame) :
    weight (f :: stack) = frameWeight f + weight stack := rfl

@[simp] theorem stack_push (c : Configuration) (f : Frame) : (c.push f).stack = f :: c.stack := rfl

@[simp] theorem stack_setTracker (c : Configuration) (t : Tracker) :
    (c.setTracker t).stack = c.stack := rfl

@[simp] theorem stack_updateDocument (c : Configuration) (i : DocumentIndex)
    (f : Document → Document) : (c.updateDocument i f).stack = c.stack := rfl

@[simp] theorem stack_releaseWatch (c : Configuration) (id : DocumentId) :
    (c.releaseWatch id).stack = c.stack := by
  unfold releaseWatch
  split <;> rfl

@[simp] theorem stack_reap (c : Configuration) : c.reap.stack = c.stack := by
  unfold reap
  split <;> rfl

@[simp] theorem stack_startCycle (c : Configuration) (i : DocumentIndex) (d : Document) :
    (c.startCycle i d).1.stack = c.stack := rfl

@[simp] theorem weight_publish (c : Configuration) (source : Source) (notice : Notice) :
    weight (c.publish source notice).1.stack = 1 + weight c.stack := rfl

theorem weight_publishSome_le (c : Configuration) (source : Source) (i : Option Invalidation) :
    weight (c.publishSome source i).1.stack ≤ 1 + weight c.stack := by
  cases i with
  | none => exact Nat.le_add_left _ _
  | some i => exact Nat.le_refl _

theorem weight_forgetDocument_le (c : Configuration) (id : DocumentId) :
    weight (c.forgetDocument id).1.stack ≤ 2 + weight c.stack := by
  have h := weight_publishSome_le
    ((c.setTracker (c.provider.tracker.forget id).2).push (.forgetting id)) (.destruction id)
    (c.provider.tracker.forget id).1
  rw [stack_push, weight_cons, stack_setTracker] at h
  have hf : frameWeight (.forgetting id) = 1 := rfl
  rw [hf] at h
  exact Nat.le_trans h (by omega)

theorem weight_keepPaths_le (c : Configuration) (cycle : Cycle) (update : Update) :
    weight (c.keepPaths cycle update).1.stack ≤ 2 + weight c.stack := by
  have hf (n : Nat) : frameWeight (.finishing cycle n) = 1 := rfl
  unfold keepPaths
  split
  · rw [stack_setTracker, stack_push, weight_cons, hf]
    omega
  · split
    · rw [stack_push, weight_cons, hf]
      omega
    · rw [weight_publish, stack_push, weight_cons, hf]
      omega

@[simp] theorem stack_attach (c : Configuration) (i : DocumentIndex) (id : DocumentId)
    (key : Nat) : (c.attach i id key).1.stack = c.stack := by
  unfold attach
  split
  · dsimp only
    split
    · rw [stack_releaseWatch]
    · rw [stack_startCycle, stack_releaseWatch]
  · rfl

/-- A configuration is at rest when somebody else runs, or nobody does. -/
theorem advance_eq_none_iff (c : Configuration) :
    c.advance = none ↔ ∀ f, c.stack.head? = some f → f.isCallout = true := by
  unfold advance
  cases c.stack with
  | nil => simp
  | cons f stack =>
    cases f with
    | delivering notice waiting => cases waiting <;> simp [Frame.isCallout]
    | destroying watches =>
      cases watches with
      | nil => simp [Frame.isCallout]
      | cons w watches =>
        dsimp only
        split <;> simp [Frame.isCallout]
    | _ => simp [Frame.isCallout]

/-- A configuration without work is at rest. -/
theorem advance_of_weight_eq_zero {c : Configuration} (h : weight c.stack = 0) :
    c.advance = none := by
  unfold advance
  split
  · rfl
  · next f stack hs =>
    rw [hs, weight_cons] at h
    cases f <;> simp [frameWeight] at h ⊢

/-- A piece of work leaves a lighter stack, or one on which somebody else has to move. -/
theorem weight_advance {c c' : Configuration} {shown : List Event}
    (h : c.advance = some (c', shown)) :
    weight c'.stack < weight c.stack ∨ c'.advance = none := by
  unfold advance at h
  cases hs : c.stack with
  | nil =>
    rw [hs] at h
    cases h
  | cons f stack =>
    rw [hs] at h
    rw [weight_cons]
    have hbelow : weight ({ c with stack } : Configuration).stack = weight stack := rfl
    cases f with
    | calling => cases h
    | asking => cases h
    | delivering notice waiting =>
      cases waiting with
      | nil =>
        injection h with h
        rw [← (Prod.mk.inj h).1]
        exact .inl (by simp [frameWeight])
      | cons id waiting =>
        injection h with h
        rw [← (Prod.mk.inj h).1]
        exact .inr rfl
    | updating cycle update =>
      injection h with h
      rw [← (Prod.mk.inj h).1]
      exact .inl (by simp [frameWeight]; omega)
    | recording cycle update =>
      injection h with h
      have hle := weight_keepPaths_le { c with stack } cycle update
      rw [h, hbelow] at hle
      exact .inl (by simp [frameWeight] at hle ⊢; omega)
    | finishing cycle files =>
      injection h with h
      rw [← (Prod.mk.inj h).1]
      exact .inl (by simp [frameWeight])
    | forgetting id =>
      injection h with h
      rw [← (Prod.mk.inj h).1]
      exact .inl (by rw [stack_releaseWatch]; simp [frameWeight])
    | destroying watches =>
      cases watches with
      | nil =>
        injection h with h
        rw [← (Prod.mk.inj h).1]
        exact .inl (by simp [frameWeight])
      | cons w watches =>
        have hw : weight (({ c with stack } : Configuration).push (.destroying watches)).stack =
            frameWeight (.destroying watches) + weight stack := rfl
        dsimp only at h
        split at h
        · injection h with h
          have hle := weight_forgetDocument_le
            (({ c with stack } : Configuration).push (.destroying watches)) w.id
          rw [h, hw] at hle
          exact .inl (by simp [frameWeight] at hle ⊢; omega)
        · injection h with h
          rw [← (Prod.mk.inj h).1]
          exact .inl (by rw [hw]; simp [frameWeight])
    | attaching i id key =>
      injection h with h
      have hst := stack_attach { c with stack } i id key
      rw [h] at hst
      exact .inl (by rw [hst]; simp [frameWeight])

/-- A configuration at rest is settled. -/
theorem settleWithin_of_rest {c : Configuration} (h : c.advance = none) (n : Nat) :
    settleWithin n c = (c, []) := by
  cases n with
  | zero => rfl
  | succ n =>
    unfold settleWithin
    rw [h]

theorem settleWithin_succ {c c' : Configuration} {shown : List Event}
    (h : c.advance = some (c', shown)) (n : Nat) :
    settleWithin (n + 1) c = ((settleWithin n c').1, shown ++ (settleWithin n c').2) := by
  rw [settleWithin]
  simp only [h]

/-- Settling within any bound that is no less than the weight of the stack comes to the same. -/
theorem settleWithin_eq {m n : Nat} {c : Configuration} (hm : weight c.stack ≤ m)
    (hn : weight c.stack ≤ n) : settleWithin m c = settleWithin n c := by
  induction m generalizing c n with
  | zero =>
    have hrest := advance_of_weight_eq_zero (Nat.le_zero.mp hm)
    rw [settleWithin_of_rest hrest, settleWithin_of_rest hrest]
  | succ m ih =>
    cases hc : c.advance with
    | none => rw [settleWithin_of_rest hc, settleWithin_of_rest hc]
    | some result =>
      obtain ⟨c', shown⟩ := result
      cases n with
      | zero =>
        rw [advance_of_weight_eq_zero (Nat.le_zero.mp hn)] at hc
        cases hc
      | succ n =>
        rw [settleWithin_succ hc, settleWithin_succ hc]
        cases weight_advance hc with
        | inl hlt => rw [ih (by omega) (by omega : weight c'.stack ≤ n)]
        | inr hrest => rw [settleWithin_of_rest hrest, settleWithin_of_rest hrest]

/-- A configuration at rest is settled. -/
theorem settle_of_rest {c : Configuration} (h : c.advance = none) : c.settle = (c, []) :=
  settleWithin_of_rest h _

/-- Settling performs a piece of work and settles what it leaves. -/
theorem settle_of_advance {c c' : Configuration} {shown : List Event}
    (h : c.advance = some (c', shown)) :
    c.settle = (c'.settle.1, shown ++ c'.settle.2) := by
  unfold settle
  rw [settleWithin_eq (Nat.le_refl _) (Nat.le_add_right (weight c.stack) 1), settleWithin_succ h]
  cases weight_advance h with
  | inl hlt => rw [settleWithin_eq (Nat.le_of_lt hlt) (Nat.le_refl (weight c'.stack))]
  | inr hrest => rw [settleWithin_of_rest hrest, settleWithin_of_rest hrest]

/-- Settling ends only where somebody else has to move. -/
theorem advance_settleWithin {n : Nat} {c : Configuration} (h : weight c.stack ≤ n) :
    (settleWithin n c).1.advance = none := by
  induction n generalizing c with
  | zero => exact advance_of_weight_eq_zero (Nat.le_zero.mp h)
  | succ n ih =>
    cases hc : c.advance with
    | none =>
      rw [settleWithin_of_rest hc]
      exact hc
    | some result =>
      obtain ⟨c', shown⟩ := result
      rw [settleWithin_succ hc]
      cases weight_advance hc with
      | inl hlt => exact ih (by omega)
      | inr hrest =>
        rw [settleWithin_of_rest hrest]
        exact hrest

/-- A settled configuration is at rest. -/
theorem advance_settle (c : Configuration) : c.settle.1.advance = none :=
  advance_settleWithin (Nat.le_refl _)

/-- Every move ends at rest. -/
theorem advance_step (c : Configuration) (m : Move) : (c.step m).1.advance = none := by
  have h := (advance_eq_none_iff _).mp (advance_settle (c.begin m).1)
  refine (advance_eq_none_iff _).mpr fun f hf => h f ?_
  rw [← hf]
  exact congrArg List.head? (stack_reap _).symm

/-- So does every run that starts at rest. -/
theorem advance_run {c : Configuration} (h : c.advance = none) (ms : List Move) :
    (c.run ms).1.advance = none := by
  induction ms generalizing c with
  | nil => exact h
  | cons m ms ih =>
    rw [run_cons]
    exact ih (advance_step c m)

end DiagnosticRelay.Configuration
