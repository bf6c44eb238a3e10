import DiagnosticRelay.Proofs.Spellings

/-!
# Operations on a tracker

What can be asked of a tracker, with the answers. Three lemmas say all that an operation does: to
the recorded paths (`recorded_perform`), to the flags (`isWatched_perform`), and what a document's
paths are taken as (`perform_fst_of_takes`). To the paths of one document an operation means one of
four things (`Operation.Bearing`): it takes them, records others, clears them with all else, or
spares them.

An operation on a document reads and writes nothing but what is known of that document. So two
operations on different documents do not notice each other (`perform_comm`). Clearing is on no
document in particular, and commutes with little.
-/

namespace DiagnosticRelay.Tracker

inductive Operation where
  | record (d : DocumentId) (paths : List Path)
  | invalidate (d : DocumentId)
  | forget (d : DocumentId)
  | watch (d : DocumentId)
  | isWatched (d : DocumentId)
  | recorded (d : DocumentId)
  | clear
  deriving DecidableEq, Repr

/-- The answer to an operation. -/
inductive Answer where
  | done
  | taken (invalidation : Option Invalidation)
  | flag (b : Bool)
  | paths (paths : Option (List Path))
  deriving DecidableEq, Repr

namespace Operation

/-- The document that an operation is on. -/
def document? : Operation → Option DocumentId
  | record d _ | invalidate d | forget d | watch d | isWatched d | recorded d => some d
  | clear => none

/-- Whether an operation takes the recorded paths of a document as an invalidation. -/
def takes (d : DocumentId) : Operation → Bool
  | invalidate e | forget e => e = d
  | _ => false

/-- Whether an operation leaves the recorded paths of a document alone. -/
def spares (d : DocumentId) : Operation → Bool
  | record e _ | invalidate e | forget e => e ≠ d
  | watch _ | isWatched _ | recorded _ => true
  | clear => false

/-- What an operation can mean for the recorded paths of a document. -/
inductive Bearing (d : DocumentId) : Operation → Prop
  | takes {op : Operation} (h : op.takes d = true) : Bearing d op
  | records (given : List Path) : Bearing d (record d given)
  | clears : Bearing d clear
  | spares {op : Operation} (h : op.spares d = true) : Bearing d op

theorem bearing (d : DocumentId) (op : Operation) : op.Bearing d := by
  cases op with
  | record e given =>
    by_cases hd : e = d
    · subst hd
      exact .records given
    · exact .spares (decide_eq_true hd)
  | invalidate e =>
    by_cases hd : e = d
    · exact .takes (decide_eq_true hd)
    · exact .spares (decide_eq_true hd)
  | forget e =>
    by_cases hd : e = d
    · exact .takes (decide_eq_true hd)
    · exact .spares (decide_eq_true hd)
  | watch e => exact .spares rfl
  | isWatched e => exact .spares rfl
  | recorded e => exact .spares rfl
  | clear => exact .clears

end Operation

def perform (t : Tracker) : Operation → Answer × Tracker
  | .record d paths => (.done, t.record d paths)
  | .invalidate d => (.taken (t.invalidate d).1, (t.invalidate d).2)
  | .forget d => (.taken (t.forget d).1, (t.forget d).2)
  | .watch d => (.flag (t.watch d).1, (t.watch d).2)
  | .isWatched d => (.flag (t.isWatched d), t)
  | .recorded d => (.paths (t.recorded d), t)
  | .clear => (.done, t.clear)

/-- The tracker after some operations. -/
def performAll : Tracker → List Operation → Tracker
  | t, [] => t
  | t, op :: ops => performAll (t.perform op).2 ops

@[simp] theorem performAll_nil (t : Tracker) : t.performAll [] = t := rfl

theorem performAll_cons (t : Tracker) (op : Operation) (ops : List Operation) :
    t.performAll (op :: ops) = (t.perform op).2.performAll ops := rfl

theorem performAll_append (t : Tracker) (ops more : List Operation) :
    t.performAll (ops ++ more) = (t.performAll ops).performAll more := by
  induction ops generalizing t with
  | nil => rfl
  | cons op ops ih => rw [List.cons_append, performAll_cons, ih, performAll_cons]

theorem performAll_append_singleton (t : Tracker) (ops : List Operation) (op : Operation) :
    t.performAll (ops ++ [op]) = ((t.performAll ops).perform op).2 :=
  performAll_append t ops [op]

/-! ## What an operation does -/

theorem recorded_perform (t : Tracker) (op : Operation) (d : DocumentId) :
    (t.perform op).2.recorded d = match op with
      | .record e paths => if d = e then
          if paths = [] then none else some (Path.firstSpellings paths)
        else t.recorded d
      | .invalidate e | .forget e => if d = e then none else t.recorded d
      | .clear => none
      | .watch _ | .isWatched _ | .recorded _ => t.recorded d := by
  cases op with
  | record e paths => exact recorded_record t e d paths
  | invalidate e => exact recorded_invalidate t e d
  | forget e => exact recorded_forget t e d
  | watch e => rfl
  | isWatched e => rfl
  | recorded e => rfl
  | clear => rfl

theorem recorded_perform_record (t : Tracker) (d : DocumentId) (given : List Path) :
    (t.perform (.record d given)).2.recorded d =
      if given = [] then none else some (Path.firstSpellings given) := by
  rw [recorded_perform]
  exact if_pos rfl

theorem recorded_perform_of_takes {op : Operation} {d : DocumentId} (h : op.takes d = true)
    (t : Tracker) : (t.perform op).2.recorded d = none := by
  rw [recorded_perform]
  cases op <;> simp_all [Operation.takes]

theorem recorded_perform_of_spares {op : Operation} {d : DocumentId} (h : op.spares d = true)
    (t : Tracker) : (t.perform op).2.recorded d = t.recorded d := by
  rw [recorded_perform]
  cases op <;> simp_all [Operation.spares, Ne.symm]

theorem isWatched_perform (t : Tracker) (op : Operation) (d : DocumentId) :
    (t.perform op).2.isWatched d = match op with
      | .forget e => if d = e then false else t.isWatched d
      | .watch e => if d = e then true else t.isWatched d
      | .clear => false
      | .record _ _ | .invalidate _ | .isWatched _ | .recorded _ => t.isWatched d := by
  cases op with
  | record e paths => exact congrFun (isWatched_record t e paths) d
  | invalidate e => exact congrFun (isWatched_invalidate t e) d
  | forget e => exact isWatched_forget t e d
  | watch e => rfl
  | isWatched e => rfl
  | recorded e => rfl
  | clear => rfl

/-- The paths that an operation takes are those recorded, if there are any. -/
theorem perform_fst_of_takes {op : Operation} {d : DocumentId} (h : op.takes d = true)
    (t : Tracker) : (t.perform op).1 = .taken (if (t.recorded d).getD [] = [] then none
      else some ⟨(t.recorded d).getD []⟩) := by
  cases op with
  | invalidate e =>
    obtain rfl : e = d := of_decide_eq_true h
    rw [← invalidate_fst]
    rfl
  | forget e =>
    obtain rfl : e = d := of_decide_eq_true h
    rw [← invalidate_fst]
    rfl
  | record e paths => cases h
  | watch e => cases h
  | isWatched e => cases h
  | recorded e => cases h
  | clear => cases h

/-! ## Independence -/

/-- The trackers know the same of a document. -/
structure AgreesAt (d : DocumentId) (t t' : Tracker) : Prop where
  recorded : t.recorded d = t'.recorded d
  isWatched : t.isWatched d = t'.isWatched d

theorem AgreesAt.symm {d : DocumentId} {t t' : Tracker} (h : AgreesAt d t t') : AgreesAt d t' t :=
  ⟨h.recorded.symm, h.isWatched.symm⟩

theorem AgreesAt.trans {d : DocumentId} {t t' t'' : Tracker} (h : AgreesAt d t t')
    (h' : AgreesAt d t' t'') : AgreesAt d t t'' :=
  ⟨h.recorded.trans h'.recorded, h.isWatched.trans h'.isWatched⟩

theorem eq_of_agreesAt {t t' : Tracker} (h : ∀ d, AgreesAt d t t') : t = t' := by
  obtain ⟨recorded, isWatched⟩ := t
  obtain ⟨recorded', isWatched'⟩ := t'
  obtain rfl : recorded = recorded' := funext fun d => (h d).recorded
  obtain rfl : isWatched = isWatched' := funext fun d => (h d).isWatched
  rfl

variable {t t' : Tracker} {op op' : Operation} {d e : DocumentId}

/-- An operation changes nothing about other documents. -/
theorem agreesAt_perform (hop : op.document? = some d) (hne : e ≠ d) :
    AgreesAt e (t.perform op).2 t := by
  refine ⟨?_, ?_⟩
  · rw [recorded_perform]
    cases op <;> cases hop <;> simp [hne]
  · rw [isWatched_perform]
    cases op <;> cases hop <;> simp [hne]

/-- An operation goes by what is known of its document. -/
theorem AgreesAt.perform_fst (h : AgreesAt d t t') (hop : op.document? = some d) :
    (t.perform op).1 = (t'.perform op).1 := by
  cases op with
  | record e paths => rfl
  | invalidate e =>
    cases hop
    have htakes : (Operation.invalidate d).takes d = true := decide_eq_true rfl
    rw [perform_fst_of_takes htakes, perform_fst_of_takes htakes, h.recorded]
  | forget e =>
    cases hop
    have htakes : (Operation.forget d).takes d = true := decide_eq_true rfl
    rw [perform_fst_of_takes htakes, perform_fst_of_takes htakes, h.recorded]
  | watch e =>
    cases hop
    simp only [Tracker.perform, Tracker.watch, h.isWatched]
  | isWatched e =>
    cases hop
    simp only [Tracker.perform, h.isWatched]
  | recorded e =>
    cases hop
    simp only [Tracker.perform, h.recorded]
  | clear => cases hop

theorem AgreesAt.perform_snd (h : AgreesAt d t t') (op : Operation) :
    AgreesAt d (t.perform op).2 (t'.perform op).2 := by
  refine ⟨?_, ?_⟩
  · rw [recorded_perform, recorded_perform, h.recorded]
  · rw [isWatched_perform, isWatched_perform, h.isWatched]

/-- Either order of the two operations gives the same answers and the same tracker. -/
structure Commute (t : Tracker) (op op' : Operation) : Prop where
  first : (t.perform op).1 = ((t.perform op').2.perform op).1
  second : (t.perform op').1 = ((t.perform op).2.perform op').1
  tracker : ((t.perform op).2.perform op').2 = ((t.perform op').2.perform op).2

/-- Operations on different documents commute. -/
theorem perform_comm (hop : op.document? = some d) (hop' : op'.document? = some e) (hne : d ≠ e)
    (t : Tracker) : t.Commute op op' where
  first := ((agreesAt_perform hop' hne).perform_fst hop).symm
  second := ((agreesAt_perform hop hne.symm).perform_fst hop').symm
  tracker := by
    apply eq_of_agreesAt
    intro x
    -- At the document of the one operation, it does the same before and after the other one.
    by_cases hx : x = d
    · have hx' : x ≠ e := hx ▸ hne
      exact (agreesAt_perform hop' hx').trans ((agreesAt_perform hop' hx').perform_snd op).symm
    · exact ((agreesAt_perform hop hx).perform_snd op').trans (agreesAt_perform hop hx).symm

end DiagnosticRelay.Tracker
