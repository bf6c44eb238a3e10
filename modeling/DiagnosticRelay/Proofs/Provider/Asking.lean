import DiagnosticRelay.Proofs.Provider.Reference.Following

/-!
# Where the compiler is asked

Polling is a move, and moves are made only where no work is left to be done. So below a compiler
that is being asked the work in progress is always at rest, and when the answer has been dealt with
whoever polled is next to move. `AskedOver` says so for any property that holds wherever a poll may
be made; changes keep it (`askedOver_of_change`), because all other work is put on top of what is
there and taken off again (`Change.restacked`).
-/

namespace DiagnosticRelay

/-- The frames below every compiler being asked have a property. -/
def AskedOver (P : List Frame → Prop) : List Frame → Prop
  | [] => True
  | f :: stack => (f.isAsking = true → P stack) ∧ AskedOver P stack

namespace AskedOver

variable {P : List Frame → Prop}

theorem of_append {fs stack : List Frame} (h : AskedOver P (fs ++ stack)) : AskedOver P stack := by
  induction fs with
  | nil => exact h
  | cons f fs ih => exact ih h.2

theorem append {fs stack : List Frame} (h : AskedOver P stack)
    (hfs : ∀ f ∈ fs, f.isAsking = false) : AskedOver P (fs ++ stack) := by
  induction fs with
  | nil => exact h
  | cons f fs ih =>
    obtain ⟨hf, hfs⟩ := List.forall_mem_cons.mp hfs
    exact ⟨fun hasking => absurd (hf.symm.trans hasking) Bool.false_ne_true, ih hfs⟩

end AskedOver

/-- Somebody else runs, or nobody does. -/
def AtRest (stack : List Frame) : Prop := ∀ f, stack.head? = some f → f.isCallout = true

namespace Configuration

variable {rule : Configuration → Move → Bool} {c c' : Configuration} {shown : List Event}

/-- How the work in progress changes: the compiler is asked for a pending cycle where nothing else
is to be done, or work is replaced by other work. -/
inductive Restacked (c c' : Configuration) : Prop
  | asked {cycle : Cycle} {place : Nat} (hc : c.advance = none) (hcycle : cycle ∈ c.pending)
    (hs : c'.stack = .asking { cycle with isStarted := true } place :: c.stack)
  | worked {stack : List Frame} (done next : List Frame) (hs : c.stack = done ++ stack)
    (hs' : c'.stack = next ++ stack) (hnext : ∀ f ∈ next, f.isAsking = false)

namespace Restacked

theorem still (hs : c'.stack = c.stack) : Restacked c c' :=
  .worked [] [] rfl hs (List.forall_mem_nil _)

theorem popped {f : Frame} {stack : List Frame} (hs : c.stack = f :: stack)
    (hs' : c'.stack = stack) : Restacked c c' :=
  .worked [f] [] hs hs' (List.forall_mem_nil _)

/-- Publishing puts the delivery of its notice on top of other work. -/
theorem publishSome {b : Configuration} {stack : List Frame} (done next : List Frame)
    (hs : c.stack = done ++ stack) (hb : b.stack = next ++ stack)
    (hnext : ∀ f ∈ next, f.isAsking = false) (source : Source) (o : Option Invalidation) :
    Restacked c (b.publishSome source o).1 := by
  obtain ⟨told, htold, hstack⟩ := exists_stack_publishSome b source o
  refine .worked done (told ++ next) hs ?_ ?_
  · rw [hstack, hb, List.append_assoc]
  · intro f hf
    rcases List.mem_append.mp hf with hf | hf
    · obtain ⟨_, _, rfl⟩ := htold f hf
      rfl
    · exact hnext f hf

end Restacked

theorem Change.restacked (h : Change rule c shown c') : Restacked c c' := by
  cases h with
  | register => exact .still rfl
  | release => exact .still rfl
  | skip => exact .still rfl
  | start => exact .still rfl
  | watch => exact .worked [] [.attaching _ _ _] rfl rfl (by simp [Frame.isAsking])
  | watchDestroyed =>
    exact .publishSome [] [.forgetting _, .attaching _ _ _] rfl rfl (by simp [Frame.isAsking]) _ _
  | poll hc hm h => exact .asked hc (List.mem_of_getElem? h) rfl
  | abandon => exact .still rfl
  | openDocument => exact .still rfl
  | destroy => exact .worked [] [.destroying _] rfl rfl (by simp [Frame.isAsking])
  | edit => exact .still rfl
  | focus => exact .still rfl
  | dispose => exact .still rfl
  | dropHandle => exact .still rfl
  | returns hm hs => exact .popped hs rfl
  | busy hm hs => exact .popped hs rfl
  | discard hm hs => exact .popped hs rfl
  | resume hm hs =>
    exact .publishSome [_] [.updating _ _] hs rfl (by simp [Frame.isAsking]) _ _
  | hand hs => exact .worked [_] [.calling _ _, .delivering _ _] hs rfl (by simp [Frame.isAsking])
  | handed hs => exact .popped hs rfl
  | update hs =>
    exact .worked [_] [.delivering _ _, .recording _ _] hs rfl (by simp [Frame.isAsking])
  | record hs => exact .worked [_] [.finishing _ _] hs rfl (by simp [Frame.isAsking])
  | leave hs => exact .worked [_] [.finishing _ _] hs rfl (by simp [Frame.isAsking])
  | retract hs =>
    exact .worked [_] [.delivering _ _, .finishing _ _] hs rfl (by simp [Frame.isAsking])
  | finish hs => exact .popped hs rfl
  | letGo hs => exact .popped hs (stack_releaseWatch _ _)
  | called hs => exact .popped hs rfl
  | call hs =>
    exact .publishSome [_] [.forgetting _, .destroying _] hs rfl (by simp [Frame.isAsking]) _ _
  | miss hs => exact .worked [_] [.destroying _] hs rfl (by simp [Frame.isAsking])
  | attach hs => exact .popped hs (stack_attach _ _ _ _)
  | detach hs => exact .popped hs rfl
  | reap => exact .still rfl

theorem askedOver_of_change {P : List Frame → Prop} (h : AskedOver P c.stack)
    (hchange : Change rule c shown c') (hrest : c.advance = none → P c.stack) :
    AskedOver P c'.stack := by
  cases hchange.restacked with
  | asked hc _ hs =>
    rw [hs]
    exact ⟨fun _ => hrest hc, h⟩
  | worked done next hs hs' hnext =>
    rw [hs']
    rw [hs] at h
    exact h.of_append.append hnext

/-- In every run the compiler is asked only where nothing else is to be done. -/
theorem askedOver_run (settings : Settings) (documents : List Document) (ms : List Move) :
    AskedOver AtRest ((new settings documents).run ms).1.stack :=
  run_keeps (P := fun c _ => AskedOver AtRest c.stack) (ready_new settings documents)
    (admits_all _ ms) trivial fun h hchange => askedOver_of_change h hchange
      (advance_eq_none_iff _).mp

/-- What is alive in the end has been alive all the time. -/
theorem isAlive_of_run (hc : c.Ready) {ms : List Move} (halive : (c.run ms).1.isAlive = true) :
    c.isAlive = true :=
  run_keeps (P := fun c' _ => c'.isAlive = true → c.isAlive = true) hc (admits_all c ms) id
    (fun h hchange halive => h (isAlive_of_change hchange halive)) halive

end Configuration

end DiagnosticRelay
