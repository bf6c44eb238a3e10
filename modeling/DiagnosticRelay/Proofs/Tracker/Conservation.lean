import DiagnosticRelay.Proofs.Ledger
import DiagnosticRelay.Proofs.Tracker.Operations
import Mathlib.Data.List.Induction

/-!
# Recorded lists are conserved

A list of paths that is stored for a document leaves the tracker in one of three ways: it is taken
as an invalidation, replaced by what is recorded next, or dropped when everything is forgotten. As
at most one list is recorded for a document at a time, lists leave in the order they were stored in.
So `stored`, which is read off the operations alone, and `departed`, which is read off the answers
and the trackers in between, are the same lists but for the one that is still recorded
(`conserved_performAll`).

A document's flag likewise tells of the operations alone (`isWatched_performAll_iff`).
-/

namespace DiagnosticRelay.Tracker

variable {t : Tracker} {ops : List Operation} {d : DocumentId}

/-! ## Well-kept trackers -/

/-- Recorded lists are not empty and have no path twice. -/
def Kept (t : Tracker) : Prop :=
  ∀ d paths, t.recorded d = some paths → paths ≠ [] ∧ Path.Distinct paths

theorem kept_empty : empty.Kept := by
  intro d paths h
  cases h

theorem Kept.perform (h : t.Kept) (op : Operation) : (t.perform op).2.Kept := by
  intro d paths hpaths
  cases op.bearing d with
  | takes htakes =>
    rw [recorded_perform_of_takes htakes] at hpaths
    cases hpaths
  | records given =>
    rw [recorded_perform_record] at hpaths
    split at hpaths
    · cases hpaths
    · next hne =>
      obtain rfl := Option.some.inj hpaths
      exact ⟨mt Path.firstSpellings_eq_nil_iff.mp hne, Path.distinct_firstSpellings given⟩
  | clears => cases hpaths
  | spares hspares =>
    rw [recorded_perform_of_spares hspares] at hpaths
    exact h d paths hpaths

theorem Kept.performAll (h : t.Kept) (ops : List Operation) : (t.performAll ops).Kept := by
  induction ops generalizing t with
  | nil => exact h
  | cons op ops ih => exact ih (h.perform op)

/-- A document's paths are taken as they were recorded, and nothing only where nothing is. -/
theorem Kept.perform_fst (h : t.Kept) {op : Operation} (hop : op.takes d = true) :
    (t.perform op).1 = .taken ((t.recorded d).map Invalidation.mk) := by
  rw [perform_fst_of_takes hop]
  cases hpaths : t.recorded d with
  | none => rfl
  | some paths => simp [(h d paths hpaths).1]

/-! ## What is stored and what departs -/

/-- How a list leaves the tracker. -/
inductive Departure where
  | returned
  | replaced
  | dropped
  deriving DecidableEq, Repr

/-- The paths of the invalidation in an answer. -/
def Answer.paths? : Answer → Option (List Path)
  | .taken invalidation => invalidation.map Invalidation.paths
  | _ => none

/-- The list that an operation stores for a document, if it does. -/
def storedBy (d : DocumentId) : Operation → List (List Path)
  | .record e given => if e = d ∧ given ≠ [] then [Path.firstSpellings given] else []
  | _ => []

/-- The list of a document that an operation makes leave, if it does, and how. What is returned is
read off the answer. -/
def departing (d : DocumentId) (t : Tracker) (op : Operation) : List (Departure × List Path) :=
  if op.takes d then (t.perform op).1.paths?.toList.map (Prod.mk .returned)
  else if op.spares d then []
  else (t.recorded d).toList.map (Prod.mk (if op = .clear then .dropped else .replaced))

/-- The lists that operations store for a document, in order. -/
def stored (d : DocumentId) (ops : List Operation) : List (List Path) := ops.flatMap (storedBy d)

/-- The lists of a document that leave a tracker, in order. -/
def departed (d : DocumentId) : Tracker → List Operation → List (Departure × List Path)
  | _, [] => []
  | t, op :: ops => departing d t op ++ departed d (t.perform op).2 ops

theorem storedBy_of_takes {op : Operation} (h : op.takes d = true) : storedBy d op = [] := by
  cases op <;> first | rfl | cases h

theorem storedBy_of_spares {op : Operation} (h : op.spares d = true) : storedBy d op = [] := by
  cases op with
  | record e given => exact if_neg fun hstored => of_decide_eq_true h hstored.1
  | _ => rfl

theorem map_snd_departing_of_takes (h : t.Kept) {op : Operation} (hop : op.takes d = true) :
    (departing d t op).map Prod.snd = (t.recorded d).toList := by
  rw [departing, if_pos hop, h.perform_fst hop]
  cases t.recorded d <;> rfl

theorem departing_of_spares {op : Operation} (h : op.spares d = true) (t : Tracker) :
    departing d t op = [] := by
  have htakes : ¬ op.takes d = true := by
    cases op <;> simp_all [Operation.takes, Operation.spares]
  rw [departing, if_neg htakes, if_pos h]

/-- What was recorded and what is stored comes to what leaves and what is recorded then. -/
theorem conserved_perform (h : t.Kept) (d : DocumentId) (op : Operation) :
    (t.recorded d).toList ++ storedBy d op =
      (departing d t op).map Prod.snd ++ ((t.perform op).2.recorded d).toList := by
  cases op.bearing d with
  | takes htakes =>
    rw [storedBy_of_takes htakes, map_snd_departing_of_takes h htakes,
      recorded_perform_of_takes htakes]
    rfl
  | records given =>
    rw [recorded_perform_record]
    by_cases hgiven : given = [] <;>
      simp [storedBy, departing, Operation.takes, Operation.spares, hgiven, Function.comp_def]
  | clears => simp [storedBy, departing, Operation.takes, Operation.spares, recorded_perform,
      Function.comp_def]
  | spares hspares =>
    rw [storedBy_of_spares hspares, departing_of_spares hspares,
      recorded_perform_of_spares hspares, List.append_nil, List.map_nil, List.nil_append]

/-- The lists that were stored are those that have left, and the one that is still recorded. -/
theorem conserved_performAll (h : t.Kept) (d : DocumentId) (ops : List Operation) :
    (t.recorded d).toList ++ stored d ops =
      (departed d t ops).map Prod.snd ++ ((t.performAll ops).recorded d).toList := by
  induction ops generalizing t with
  | nil => simp [stored, departed]
  | cons op ops ih =>
    calc (t.recorded d).toList ++ stored d (op :: ops)
        = ((t.recorded d).toList ++ storedBy d op) ++ stored d ops := by
          rw [stored, List.flatMap_cons, List.append_assoc, stored]
      _ = (departing d t op).map Prod.snd ++
            (((t.perform op).2.recorded d).toList ++ stored d ops) := by
          rw [conserved_perform h, List.append_assoc]
      _ = (departed d t (op :: ops)).map Prod.snd ++
            ((t.performAll (op :: ops)).recorded d).toList := by
          rw [ih (h.perform op), ← List.append_assoc, departed, List.map_append, performAll_cons]

/-! ## What a history leaves -/

/-- The paths recorded for a document are those it was given last. -/
theorem exists_record_of_recorded {paths : List Path}
    (h : (empty.performAll ops).recorded d = some paths) :
    ∃ before given after, ops = before ++ .record d given :: after ∧
      (∀ other, .record d other ∉ after) ∧ paths = Path.firstSpellings given := by
  induction ops using List.reverseRecOn with
  | nil => cases h
  | append_singleton ops op ih =>
    rw [performAll_append_singleton] at h
    cases op.bearing d with
    | takes htakes =>
      rw [recorded_perform_of_takes htakes] at h
      cases h
    | records given =>
      rw [recorded_perform_record] at h
      split at h
      · cases h
      · exact ⟨ops, given, [], rfl, fun _ => List.not_mem_nil, (Option.some.inj h).symm⟩
    | clears => cases h
    | spares hspares =>
      rw [recorded_perform_of_spares hspares] at h
      obtain ⟨before, given, after, rfl, hafter, hpaths⟩ := ih h
      refine ⟨before, given, after ++ [op], by simp, ?_, hpaths⟩
      intro other hmem
      rcases List.mem_append.mp hmem with hmem | hmem
      · exact hafter other hmem
      · rw [← List.mem_singleton.mp hmem] at hspares
        exact of_decide_eq_true hspares rfl

/-- The document has been flagged, and neither it nor everything has been forgotten since. -/
def Flagged (d : DocumentId) (ops : List Operation) : Prop :=
  ∃ before after, ops = before ++ .watch d :: after ∧ .forget d ∉ after ∧ .clear ∉ after

theorem not_flagged_nil : ¬ Flagged d [] := by
  rintro ⟨before, after, h, _⟩
  simp at h

theorem flagged_append_singleton {op : Operation} : Flagged d (ops ++ [op]) ↔
    op = .watch d ∨ Flagged d ops ∧ op ≠ .forget d ∧ op ≠ .clear := by
  constructor
  · rintro ⟨before, after, h, hforget, hclear⟩
    rcases append_singleton_cases h with ⟨_, _, heq⟩ | ⟨after', rfl, rfl⟩
    · exact .inl heq.symm
    · rw [List.mem_append, not_or, List.mem_singleton] at hforget hclear
      exact .inr ⟨⟨before, after', rfl, hforget.1, hclear.1⟩, Ne.symm hforget.2, Ne.symm hclear.2⟩
  · rintro (rfl | ⟨⟨before, after, rfl, hforget, hclear⟩, hop, hop'⟩)
    · exact ⟨ops, [], rfl, List.not_mem_nil, List.not_mem_nil⟩
    · refine ⟨before, after ++ [op], by simp, ?_, ?_⟩
      · rw [List.mem_append, List.mem_singleton, not_or]
        exact ⟨hforget, Ne.symm hop⟩
      · rw [List.mem_append, List.mem_singleton, not_or]
        exact ⟨hclear, Ne.symm hop'⟩

theorem isWatched_performAll_iff : (empty.performAll ops).isWatched d = true ↔ Flagged d ops := by
  induction ops using List.reverseRecOn with
  | nil => exact iff_of_false Bool.false_ne_true not_flagged_nil
  | append_singleton ops op ih =>
    rw [performAll_append_singleton, isWatched_perform, flagged_append_singleton, ← ih]
    cases op with
    | watch e =>
      by_cases hd : e = d
      · simp [hd]
      · simp [hd, Ne.symm hd]
    | forget e =>
      by_cases hd : e = d
      · simp [hd]
      · simp [hd, Ne.symm hd]
    | record e given => simp
    | invalidate e => simp
    | isWatched e => simp
    | recorded e => simp
    | clear => simp

/-! ## The account of a history -/

/-- What a tracker and its answers are after operations, for all documents. -/
structure Accounts (ops : List Operation) : Prop where
  /-- A recorded list is not empty, has no path twice, and is what was given last for the document
  without the later spellings. -/
  recorded : ∀ d paths, (empty.performAll ops).recorded d = some paths →
    paths ≠ [] ∧ Path.Distinct paths ∧ ∃ before given after,
      ops = before ++ .record d given :: after ∧ (∀ other, .record d other ∉ after) ∧
        paths = Path.firstSpellings given
  /-- Every list stored has left once and unchanged, or is the one recorded. -/
  conserved : ∀ d, stored d ops =
    (departed d empty ops).map Prod.snd ++ ((empty.performAll ops).recorded d).toList
  /-- A document's paths are taken as they were recorded, and nothing only where nothing is. -/
  taken : ∀ d op, op.takes d = true → ((empty.performAll ops).perform op).1 =
    .taken (((empty.performAll ops).recorded d).map Invalidation.mk)
  /-- A document is flagged anew unless it has been flagged since it was last forgotten. -/
  watched : ∀ d, ((empty.performAll ops).perform (.watch d)).1 = .flag true ↔ ¬ Flagged d ops

theorem accounts (ops : List Operation) : Accounts ops where
  recorded := by
    intro d paths hpaths
    obtain ⟨hne, hdistinct⟩ := kept_empty.performAll ops d paths hpaths
    exact ⟨hne, hdistinct, exists_record_of_recorded hpaths⟩
  conserved := fun d => conserved_performAll kept_empty d ops
  taken := fun _ _ hop => (kept_empty.performAll ops).perform_fst hop
  watched := by
    intro d
    rw [← isWatched_performAll_iff]
    simp [perform, watch]

/-- Whatever the operations, every list recorded is accounted for, and flags tell of the operations
since a document was forgotten last; and in whatever state a tracker is, operations on different
documents commute. -/
theorem performAll_accounts :
    (∀ ops, Accounts ops) ∧
      ∀ (t : Tracker) (op op' : Operation) (d d' : DocumentId), op.document? = some d →
        op'.document? = some d' → d ≠ d' → t.Commute op op' :=
  ⟨accounts, fun t _ _ _ _ hop hop' hne => perform_comm hop hop' hne t⟩

/-- The first list is replaced, the second is taken with its first spelling, and the third stays.
The other document's list has the path of the second one. -/
def sharedHistory : List Operation :=
  [.watch ⟨1⟩, .record ⟨1⟩ [⟨"a"⟩], .record ⟨1⟩ [⟨"b"⟩, ⟨"b/"⟩], .record ⟨2⟩ [⟨"b"⟩], .forget ⟨1⟩,
    .invalidate ⟨1⟩, .record ⟨1⟩ [⟨"c"⟩]]

theorem performAll_accounts_sharedHistory :
    Accounts sharedHistory ∧
    departed ⟨1⟩ empty sharedHistory = [(.replaced, [⟨"a"⟩]), (.returned, [⟨"b"⟩])] ∧
    (Operation.invalidate ⟨1⟩).document? = some ⟨1⟩ ∧
    (Operation.record ⟨2⟩ [⟨"c"⟩]).document? = some ⟨2⟩ ∧ (⟨1⟩ : DocumentId) ≠ ⟨2⟩ ∧
    (empty.performAll sharedHistory).Commute (.invalidate ⟨1⟩) (.record ⟨2⟩ [⟨"c"⟩]) := by
  refine ⟨performAll_accounts.1 sharedHistory, by decide, rfl, rfl, by decide, ?_⟩
  exact performAll_accounts.2 _ _ _ _ _ rfl rfl (by decide)

end DiagnosticRelay.Tracker
