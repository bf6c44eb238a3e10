import DiagnosticRelay.Proofs.Grouping

/-!
# Retraction

Paths are told apart in two ways. An update scans the files it has for one with the path of a
message; the tracker drops the paths that a hashed set has met before. `unseen` is the second way as
it is carried out, with any hash of the components. Both keep the first spellings of the paths
(`paths_ofMessages`, `unseen_eq_firstSpellings`), so they tell apart the same paths, and the
invalidation of an update lists the files of the update as the update lists them.
-/

namespace DiagnosticRelay

namespace Path

/-- A set of paths, kept in a bucket for each hash. -/
abbrev Buckets := UInt64 → List Path

variable (hash : List Component → UInt64)

namespace Buckets

def empty : Buckets := fun _ => []

/-- Whether a path is in the set. Only the bucket of its hash is looked at. -/
def contains (seen : Buckets) (p : Path) : Bool :=
  (seen (hash p.components)).any fun q => Same q p

def insert (seen : Buckets) (p : Path) : Buckets :=
  fun k => if k = hash p.components then p :: seen k else seen k

/-- The same paths have the same hash, so a path that is put in makes the set contain the paths that
are the same, and no others. -/
theorem contains_insert (seen : Buckets) (p q : Path) :
    (seen.insert hash p).contains hash q = (decide (Same p q) || seen.contains hash q) := by
  unfold contains insert
  split
  · rw [List.any_cons]
  · next hne =>
    have hdiffer : ¬ Same p q := fun hsame => hne (congrArg hash hsame.symm)
    rw [decide_eq_false hdiffer, Bool.false_or]

end Buckets

/-- The paths that are not in the set yet when they are put into it one after the other. -/
def unseen (seen : Buckets) : List Path → List Path
  | [] => []
  | p :: ps =>
    if seen.contains hash p then unseen seen ps else p :: unseen (seen.insert hash p) ps

/-- Of the first spellings, those that are in the set already are left out. -/
theorem unseen_eq_filter (seen : Buckets) (ps : List Path) :
    unseen hash seen ps = (firstSpellings ps).filter fun p => ! seen.contains hash p := by
  induction ps generalizing seen with
  | nil => rfl
  | cons p ps ih =>
    rw [firstSpellings_cons, List.filter_cons, List.filter_filter, unseen]
    split
    · next hseen =>
      rw [ih, hseen, if_neg (by simp)]
      apply List.filter_congr
      intro q _
      -- A path that is the same as `p` is in the set, as `p` is.
      by_cases hsame : Same p q
      · have hcontains : seen.contains hash q = true := by
          rw [← hseen]
          unfold Buckets.contains
          rw [show q.components = p.components from hsame.symm]
          refine congrArg (List.any _) (funext fun r => ?_)
          exact decide_eq_decide.mpr ⟨fun h => h.trans hsame.symm, fun h => h.trans hsame⟩
        simp [hcontains]
      · simp [hsame]
    · next hseen =>
      rw [ih, if_pos (by simp [hseen])]
      congr 1
      apply List.filter_congr
      intro q _
      rw [Buckets.contains_insert, Bool.not_or, Bool.and_comm, decide_not]

/-- Whatever the hash, the paths that are new to an empty set are the first spellings. -/
theorem unseen_eq_firstSpellings (ps : List Path) :
    unseen hash .empty ps = firstSpellings ps := by
  rw [unseen_eq_filter]
  exact List.filter_eq_self.mpr fun _ _ => rfl

end Path

namespace Tracker

/-- What has been recorded is what is taken back next. -/
theorem invalidate_record (t : Tracker) (d : DocumentId) (paths : List Path) :
    ((t.record d paths).invalidate d).1 =
      if paths = [] then none else some ⟨Path.firstSpellings paths⟩ := by
  have hrecorded : ((t.record d paths).recorded d).getD [] = Path.firstSpellings paths := by
    rw [recorded_record, if_pos rfl]
    split
    · next hnil => rw [hnil]; rfl
    · rfl
  rw [invalidate_fst, hrecorded]
  simp only [Path.firstSpellings_eq_nil_iff]

/-- The files of an update, recorded and taken back, are the files of the update: there are none
exactly if the update is empty, and otherwise they come back in their order and spelling, none
missing. For the set that records them and the scan that made them keep the same of any paths. -/
theorem invalidate_record_paths (hash : List Path.Component → UInt64) (ms : List Message)
    (t : Tracker) (d : DocumentId) :
    ((t.record d (Update.ofMessages ms).paths).invalidate d).1 =
        (if (Update.ofMessages ms).isEmpty then none else some ⟨(Update.ofMessages ms).paths⟩) ∧
      (∀ paths, (t.record d paths).recorded d =
        if paths = [] then none else some (Path.unseen hash .empty paths)) ∧
      (Update.ofMessages ms).paths = Path.unseen hash .empty (ms.map Message.path) := by
  refine ⟨?_, ?_, ?_⟩
  · have hkept := (Update.distinct_ofMessages ms).firstSpellings_eq
    rw [invalidate_record, hkept]
    simp only [Update.isEmpty_iff]
  · intro paths
    rw [recorded_record, if_pos rfl, Path.unseen_eq_firstSpellings]
  · rw [Path.unseen_eq_firstSpellings, Update.paths_ofMessages]

end Tracker

end DiagnosticRelay
