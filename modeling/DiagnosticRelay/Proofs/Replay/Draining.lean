import DiagnosticRelay.Proofs.Replay.Serving

/-!
# Draining a replay

A replay is drained with a bound on the turns it takes. `Drains` is the same loop without one: turns
are taken until nothing is in progress and no cycle is pending. Where the loop ends, so does
draining within any bound that is no less than its number of turns (`Drains.within`), so the bound
is never what ends it. Along the loop go the answers that the compiler gives, each with the number
of the cycle that asked.
-/

namespace DiagnosticRelay.Replay

/-- The number of the cycle that asks the compiler next, and what it is answered. -/
def answering? (r : Replay) : Option (Nat × Outcome) :=
  match r.configuration.callouts with
  | .asking cycle _ :: _ => some (cycle.number, (answer r.title r.results).1)
  | _ => none

/-- The answers that the compiler gives until everything is drained, in at most so many turns. -/
def answersWithin : Nat → Replay → List (Nat × Outcome)
  | 0, _ => []
  | n + 1, r => if r.isDrained then [] else r.answering?.toList ++ answersWithin n r.turn

/-- The answers that the compiler gives as the replay is drained. -/
def answers (r : Replay) : List (Nat × Outcome) :=
  answersWithin (4 * r.configuration.pending.length) r

/-- The answers that the compiler gives after each of the events. -/
def answersAfter : Replay → List DocumentEvent → List (Nat × Outcome)
  | _, [] => []
  | r, e :: es => (r.move (.event 0 e)).answers ++ answersAfter (r.event e) es

/-- So many turns, with these answers, leave everything drained. -/
inductive Drains : Nat → Replay → List (Nat × Outcome) → Replay → Prop
  | done {r : Replay} (h : r.isDrained = true) : Drains 0 r [] r
  | turn {n : Nat} {r r' : Replay} {answers : List (Nat × Outcome)} (h : r.isDrained = false)
    (hrest : Drains n r.turn answers r') : Drains (n + 1) r (r.answering?.toList ++ answers) r'

/-- Without a bound, the loop ends where draining does, with the same answers and nothing left. -/
def Ends (r : Replay) : Prop := (∃ n, Drains n r r.answers r.drain) ∧ r.drain.isDrained = true

/-- The loop ends after each of the events. -/
def EndsAfter : Replay → List DocumentEvent → Prop
  | _, [] => True
  | r, e :: es => (r.move (.event 0 e)).Ends ∧ (r.event e).EndsAfter es

variable {r r' : Replay} {m n : Nat} {answers : List (Nat × Outcome)}

/-- What is drained is left alone. -/
theorem drainWithin_of_isDrained (h : r.isDrained = true) (n : Nat) : drainWithin n r = r := by
  cases n with
  | zero => rfl
  | succ n => rw [drainWithin, if_pos h]

theorem answersWithin_of_isDrained (h : r.isDrained = true) (n : Nat) : answersWithin n r = [] := by
  cases n with
  | zero => rfl
  | succ n => rw [answersWithin, if_pos h]

namespace Drains

/-- One turn more, of which is known where it leads and what the compiler is answered. -/
theorem turnTo {next : Replay} {answer : Option (Nat × Outcome)} (h : r.isDrained = false)
    (hturn : r.turn = next) (hanswering : r.answering? = answer)
    (hrest : Drains n next answers r') : Drains (n + 1) r (answer.toList ++ answers) r' := by
  subst hturn hanswering
  exact .turn h hrest

/-- The loop ends only where everything is drained. -/
theorem isDrained (h : Drains n r answers r') : r'.isDrained = true := by
  induction h with
  | done h => exact h
  | turn _ _ ih => exact ih

/-- A bound that is no less than the number of turns is not what ends the loop. -/
theorem within (h : Drains n r answers r') (hle : n ≤ m) :
    drainWithin m r = r' ∧ answersWithin m r = answers := by
  induction h generalizing m with
  | done h => exact ⟨drainWithin_of_isDrained h m, answersWithin_of_isDrained h m⟩
  | @turn n r r' answers h hrest ih =>
    obtain ⟨m, rfl⟩ := Nat.exists_eq_add_of_le' (Nat.one_le_of_lt hle)
    obtain ⟨hdrain, hanswers⟩ := ih (Nat.le_of_succ_le_succ hle)
    have hgo : ¬ r.isDrained = true := by simp [h]
    constructor
    · rw [drainWithin, if_neg hgo, hdrain]
    · rw [answersWithin, if_neg hgo, hanswers]

/-- A loop that ends within four turns for each pending cycle is what draining does. -/
theorem drain (h : Drains n r answers r') (hle : n ≤ 4 * r.configuration.pending.length) :
    r.drain = r' ∧ r.answers = answers ∧ r.Ends := by
  obtain ⟨hdrain, hanswers⟩ := h.within hle
  refine ⟨hdrain, hanswers, ⟨n, ?_⟩, ?_⟩
  · rw [Replay.drain, Replay.answers, hdrain, hanswers]
    exact h
  · rw [Replay.drain, hdrain]
    exact h.isDrained

end Drains

/-! ## What a move leaves -/

theorem foldl_observe (r : Replay) (es : List Event) :
    (es.foldl observe r).configuration = r.configuration ∧
      (es.foldl observe r).results = r.results ∧
        (es.foldl observe r).notices = r.notices ++ told es := by
  induction es generalizing r with
  | nil => simp [told]
  | cons e es ih =>
    obtain ⟨hconfiguration, hresults, hnotices⟩ := ih (r.observe e)
    rw [List.foldl_cons]
    cases e with
    | called listener notice =>
      refine ⟨hconfiguration, hresults, hnotices.trans ?_⟩
      exact List.append_assoc r.notices [notice] (told es)
    | _ => exact ⟨hconfiguration, hresults, hnotices⟩

theorem configuration_move (r : Replay) (m : Move) :
    (r.move m).configuration = (r.configuration.step m).1 :=
  (foldl_observe _ _).1

theorem results_move (r : Replay) (m : Move) : (r.move m).results = r.results :=
  (foldl_observe _ _).2.1

/-- The listeners collect what the provider tells them. -/
theorem notices_move (r : Replay) (m : Move) :
    (r.move m).notices = r.notices ++ told (r.configuration.step m).2 :=
  (foldl_observe _ _).2.2

end DiagnosticRelay.Replay
