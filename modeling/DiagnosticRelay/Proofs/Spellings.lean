import DiagnosticRelay.Compile.Messages
import DiagnosticRelay.Tracker

/-!
# Spellings

Two places tell paths apart: an update looks a message's file up among the files it has, and the
tracker drops the later spellings of a path. Both go by `Path.Same`. So the paths of an update that
was made of messages are `Path.Distinct`, the tracker keeps such a list as it is, and what it takes
back for an invalidation are the paths of the update, in their order and spelling.
-/

namespace DiagnosticRelay

namespace Path

/-- No two of the paths are the same. -/
def Distinct (ps : List Path) : Prop := ps.Pairwise fun p q => ¬ Same p q

@[simp] theorem distinct_nil : Distinct [] := List.Pairwise.nil

theorem distinct_cons {p : Path} {ps : List Path} :
    Distinct (p :: ps) ↔ (∀ q ∈ ps, ¬ Same p q) ∧ Distinct ps :=
  List.pairwise_cons

theorem Distinct.concat {ps : List Path} {p : Path} (h : Distinct ps)
    (hp : ∀ q ∈ ps, ¬ Same q p) : Distinct (ps ++ [p]) := by
  refine List.pairwise_append.mpr ⟨h, List.pairwise_singleton _ _, ?_⟩
  intro q hq r hr
  rw [List.mem_singleton.mp hr]
  exact hp q hq

/-- Distinct paths are their own first spellings. -/
theorem Distinct.firstSpellings_eq {ps : List Path} (h : Distinct ps) : firstSpellings ps = ps := by
  induction ps with
  | nil => rfl
  | cons p ps ih =>
    have hp := distinct_cons.mp h
    rw [firstSpellings_cons, ih hp.2]
    congr 1
    apply List.filter_eq_self.mpr
    intro q hq
    exact decide_eq_true (hp.1 q hq)

/-- First spellings are distinct. -/
theorem distinct_firstSpellings (ps : List Path) : Distinct (firstSpellings ps) := by
  induction ps with
  | nil => exact distinct_nil
  | cons p ps ih =>
    refine distinct_cons.mpr ⟨?_, ih.filter _⟩
    intro q hq
    exact of_decide_eq_true (List.mem_filter.mp hq).2

end Path

namespace Update

/-- The paths of files with a message added to them. -/
theorem paths_insert (m : Message) (files : List (Path × List Message)) :
    (insert m files).map Prod.fst = if ∃ p ∈ files.map Prod.fst, Path.Same p m.path then
      files.map Prod.fst else files.map Prod.fst ++ [m.path] := by
  induction files with
  | nil => rfl
  | cons entry files ih =>
    obtain ⟨p, ms⟩ := entry
    by_cases hp : Path.Same p m.path
    · simp [insert, hp]
    · simp only [insert, hp, if_false, List.map_cons, ih]
      by_cases hq : ∃ q ∈ files.map Prod.fst, Path.Same q m.path
      · have hpq : ∃ q ∈ p :: files.map Prod.fst, Path.Same q m.path := by
          obtain ⟨q, hq, hs⟩ := hq
          exact ⟨q, List.mem_cons_of_mem _ hq, hs⟩
        rw [if_pos hq, if_pos hpq]
      · have hpq : ¬ ∃ q ∈ p :: files.map Prod.fst, Path.Same q m.path := by
          rintro ⟨q, hmem, hs⟩
          rcases List.mem_cons.mp hmem with rfl | hmem
          · exact hp hs
          · exact hq ⟨q, hmem, hs⟩
        rw [if_neg hq, if_neg hpq, List.cons_append]

theorem distinct_empty : Path.Distinct empty.paths := Path.distinct_nil

theorem distinct_push {u : Update} (h : Path.Distinct u.paths) (m : Message) :
    Path.Distinct (u.push m).paths := by
  have hpaths : (u.push m).paths = _ := paths_insert m u.files
  rw [hpaths]
  split
  · exact h
  · next hnone =>
    apply Path.Distinct.concat h
    intro q hq hs
    exact hnone ⟨q, hq, hs⟩

end Update

theorem distinct_addMessages {lines : LineLengths} {ds : List Diagnostic} {u v : Update}
    (hu : Path.Distinct u.paths) (h : addMessages lines u ds = .ok v) :
    Path.Distinct v.paths := by
  induction ds generalizing u with
  | nil =>
    obtain rfl : u = v := Except.ok.inj h
    exact hu
  | cons d ds ih =>
    rw [addMessages] at h
    split at h
    · cases h
    · exact ih hu h
    · exact ih (Update.distinct_push hu _) h

/-- The update for a result lists every file once. -/
theorem distinct_messagesOf {result : CompileResult} {path : Option Path} {lines : LineLengths}
    {u : Update} (h : messagesOf result path lines = .ok u) : Path.Distinct u.paths := by
  unfold messagesOf at h
  split at h
  · exact distinct_addMessages Update.distinct_empty h
  · cases path with
    | none => cases h
    | some path =>
      have hu : Update.empty.push (missingFlagsMessage path) = u := Except.ok.inj h
      rw [← hu]
      exact Update.distinct_push Update.distinct_empty _

namespace Tracker

theorem recorded_record (t : Tracker) (d e : DocumentId) (paths : List Path) :
    (t.record d paths).recorded e = if e = d then
      if paths = [] then none else some (Path.firstSpellings paths)
    else t.recorded e := by
  unfold record
  split
  · next h =>
    rw [Path.firstSpellings_eq_nil_iff] at h
    simp [h]
  · next p ps h =>
    have hne : paths ≠ [] := fun hnil => by simp [hnil] at h
    simp [h, hne]

/-- The tracker keeps distinct paths as they are. -/
theorem getD_recorded_record (t : Tracker) {paths : List Path} (h : Path.Distinct paths)
    (d e : DocumentId) : ((t.record d paths).recorded e).getD [] =
      if e = d then paths else (t.recorded e).getD [] := by
  rw [recorded_record]
  split
  · split
    · next hnil => exact hnil.symm
    · exact h.firstSpellings_eq
  · rfl

@[simp] theorem isWatched_record (t : Tracker) (d : DocumentId) (paths : List Path) :
    (t.record d paths).isWatched = t.isWatched := by
  unfold record
  split <;> rfl

theorem recorded_invalidate (t : Tracker) (d e : DocumentId) :
    (t.invalidate d).2.recorded e = if e = d then none else t.recorded e := by
  unfold invalidate
  split
  · next h =>
    by_cases he : e = d
    · simp [he, h]
    · simp [he]
  · simp
  · simp

@[simp] theorem isWatched_invalidate (t : Tracker) (d : DocumentId) :
    (t.invalidate d).2.isWatched = t.isWatched := by
  unfold invalidate
  split <;> rfl

/-- What is taken back is what was recorded. -/
theorem invalidate_fst (t : Tracker) (d : DocumentId) :
    (t.invalidate d).1 = if (t.recorded d).getD [] = [] then none
      else some ⟨(t.recorded d).getD []⟩ := by
  unfold invalidate
  split
  · next h => simp [h]
  · next h => simp [h]
  · next h => simp [h]

theorem forget_fst (t : Tracker) (d : DocumentId) : (t.forget d).1 = (t.invalidate d).1 := rfl

theorem recorded_forget (t : Tracker) (d e : DocumentId) :
    (t.forget d).2.recorded e = if e = d then none else t.recorded e :=
  recorded_invalidate t d e

theorem isWatched_forget (t : Tracker) (d e : DocumentId) :
    (t.forget d).2.isWatched e = if e = d then false else t.isWatched e := by
  show ((t.invalidate d).2.setWatched d false).isWatched e = _
  rw [isWatched_setWatched, isWatched_invalidate]

end Tracker

end DiagnosticRelay
