import DiagnosticRelay.Update

/-!
# Ledgers of notices

What was published for one document, in order, read as a ledger: an update puts the paths of its
messages on the document's account, and an invalidation takes paths off it. A ledger is `Balanced`
when no update comes while paths are still due, and every invalidation takes off all that is due,
and something. Then updates and invalidations are `Matched`: every invalidation lists the paths of
the update right before it (`Balanced.matched`), and only the last update can be outstanding.
-/

namespace DiagnosticRelay

/-- A ledger with the paths of its last update and the paths that are still due. -/
inductive Balanced : List Notice → List Path → List Path → Prop
  | nil : Balanced [] [] []
  | update {ns : List Notice} {last : List Path} (h : Balanced ns last []) (u : Update) :
    Balanced (ns ++ [.update u]) u.paths u.paths
  | invalidation {ns : List Notice} {last due : List Path} (h : Balanced ns last due)
    (hdue : due ≠ []) : Balanced (ns ++ [.invalidation ⟨due⟩]) last []

/-- Every invalidation lists the paths of the update right before it, and no update with paths is
followed by anything but its invalidation. -/
structure Matched (ns : List Notice) : Prop where
  invalidation : ∀ before i after, ns = before ++ .invalidation i :: after →
    i.paths ≠ [] ∧ ∃ earlier u, before = earlier ++ [.update u] ∧ u.paths = i.paths
  update : ∀ before u after, ns = before ++ .update u :: after → u.paths ≠ [] → after ≠ [] →
    ∃ later, after = .invalidation ⟨u.paths⟩ :: later

/-- The paths of the last update among notices. -/
def lastPaths (ns : List Notice) : List Path :=
  ns.foldl (fun last n => match n with | .update u => u.paths | .invalidation _ => last) []

@[simp] theorem lastPaths_nil : lastPaths [] = [] := rfl

@[simp] theorem lastPaths_append_update (ns : List Notice) (u : Update) :
    lastPaths (ns ++ [.update u]) = u.paths := by
  simp [lastPaths]

@[simp] theorem lastPaths_append_invalidation (ns : List Notice) (i : Invalidation) :
    lastPaths (ns ++ [.invalidation i]) = lastPaths ns := by
  simp [lastPaths]

theorem lastPaths_of_last {after : List Notice} (h : ∀ v, .update v ∉ after)
    (before : List Notice) (u : Update) : lastPaths (before ++ .update u :: after) = u.paths := by
  rw [lastPaths, List.foldl_append, List.foldl_cons]
  induction after with
  | nil => rfl
  | cons n after ih =>
    cases n with
    | update v => exact absurd List.mem_cons_self (h v)
    | invalidation i => exact ih fun v hv => h v (List.mem_cons_of_mem _ hv)

/-- Where an entry stands when another one is appended. -/
theorem append_singleton_cases {α : Type} {ns before after : List α} {n m : α}
    (h : ns ++ [n] = before ++ m :: after) :
    (after = [] ∧ before = ns ∧ m = n) ∨
      ∃ after', after = after' ++ [n] ∧ ns = before ++ m :: after' := by
  rcases List.eq_nil_or_concat after with rfl | ⟨after', k, rfl⟩
  · obtain ⟨rfl, hlast⟩ := List.append_inj' h rfl
    exact .inl ⟨rfl, rfl, (List.cons.inj hlast).1.symm⟩
  · rw [List.concat_eq_append, ← List.cons_append, ← List.append_assoc] at h
    obtain ⟨rfl, hlast⟩ := List.append_inj' h rfl
    rw [(List.cons.inj hlast).1, List.concat_eq_append]
    exact .inr ⟨after', rfl, rfl⟩

/-- If anything follows the last update, it is its invalidation. -/
theorem Matched.after_last {before after : List Notice} {u : Update}
    (h : Matched (before ++ .update u :: after)) (hu : u.paths ≠ [])
    (hlast : ∀ v, .update v ∉ after) (hafter : after ≠ []) :
    after = [.invalidation ⟨u.paths⟩] := by
  obtain ⟨later, rfl⟩ := h.update before u after rfl hu hafter
  cases later with
  | nil => rfl
  | cons n later =>
    cases n with
    | update v => exact absurd (List.mem_cons_of_mem _ List.mem_cons_self) (hlast v)
    | invalidation i =>
      obtain ⟨_, earlier, v, heq, _⟩ := h.invalidation
        (before ++ [.update u, .invalidation ⟨u.paths⟩]) i later (by simp)
      have hsame : (before ++ [.update u]) ++ [.invalidation ⟨u.paths⟩] =
          earlier ++ [.update v] := by
        rw [← heq, List.append_assoc]
        rfl
      cases (List.cons.inj (List.append_inj' hsame rfl).2).1

namespace Balanced

variable {ns : List Notice} {last due : List Path}

theorem last_eq (h : Balanced ns last due) : last = lastPaths ns := by
  induction h with
  | nil => rfl
  | update _ u => simp
  | invalidation _ _ ih => rw [lastPaths_append_invalidation, ih]

/-- What is due are the paths of the last entry, an update. -/
theorem exists_update (h : Balanced ns last due) (hdue : due ≠ []) :
    ∃ earlier u, ns = earlier ++ [.update u] ∧ u.paths = due := by
  cases h with
  | nil => exact absurd rfl hdue
  | update _ u => exact ⟨_, u, rfl, rfl⟩
  | invalidation => exact absurd rfl hdue

/-- All that is due is taken off. -/
theorem takeOff (h : Balanced ns last due) :
    Balanced (ns ++ if due = [] then [] else [.invalidation ⟨due⟩]) last [] := by
  split
  · next hdue =>
    rw [List.append_nil, ← hdue]
    exact hdue ▸ h
  · next hdue => exact h.invalidation hdue

/-- The paths of an update that comes last are due. -/
theorem due_of_update {u : Update} (h : Balanced (ns ++ [.update u]) last due) :
    due = u.paths := by
  generalize hns : ns ++ [.update u] = all at h
  cases h with
  | nil => exact absurd hns (List.append_ne_nil_of_right_ne_nil ns (List.cons_ne_nil _ _))
  | update _ v =>
    obtain ⟨_, hlast⟩ := List.append_inj' hns rfl
    rw [Notice.update.inj (List.cons.inj hlast).1]
  | invalidation =>
    obtain ⟨_, hlast⟩ := List.append_inj' hns rfl
    cases (List.cons.inj hlast).1

/-- There are no invalidations without updates. -/
theorem eq_nil_of_no_update (h : Balanced ns last due) (hnone : ∀ u, .update u ∉ ns) : ns = [] := by
  cases h with
  | nil => rfl
  | update _ u => exact absurd (List.mem_append_right _ List.mem_cons_self) (hnone u)
  | invalidation h hdue =>
    obtain ⟨earlier, u, rfl, _⟩ := h.exists_update hdue
    exact absurd (by simp) (hnone u)

/-- Nothing is due when an update comes. -/
theorem of_append_update {u : Update} (h : Balanced (ns ++ [.update u]) last due) :
    ∃ last', Balanced ns last' [] := by
  generalize hns : ns ++ [.update u] = all at h
  cases h with
  | nil => exact absurd hns (List.append_ne_nil_of_right_ne_nil ns (List.cons_ne_nil _ _))
  | update h =>
    obtain ⟨rfl, _⟩ := List.append_inj' hns rfl
    exact ⟨_, h⟩
  | invalidation =>
    obtain ⟨_, hlast⟩ := List.append_inj' hns rfl
    cases (List.cons.inj hlast).1

/-- An invalidation lists what is due. -/
theorem of_append_invalidation {i : Invalidation}
    (h : Balanced (ns ++ [.invalidation i]) last due) :
    Balanced ns last i.paths ∧ i.paths ≠ [] ∧ due = [] := by
  generalize hns : ns ++ [.invalidation i] = all at h
  cases h with
  | nil => exact absurd hns (List.append_ne_nil_of_right_ne_nil ns (List.cons_ne_nil _ _))
  | update =>
    obtain ⟨_, hlast⟩ := List.append_inj' hns rfl
    cases (List.cons.inj hlast).1
  | invalidation h hdue =>
    obtain ⟨rfl, hlast⟩ := List.append_inj' hns rfl
    rw [Notice.invalidation.inj (List.cons.inj hlast).1]
    exact ⟨h, hdue, rfl⟩

/-- As long as all paths of the last update are due, nothing has followed it. -/
theorem eq_nil_of_due {before after : List Notice} {u : Update}
    (h : Balanced (before ++ .update u :: after) last last) (hlast : ∀ v, .update v ∉ after) :
    after = [] := by
  rcases List.eq_nil_or_concat after with rfl | ⟨after', n, rfl⟩
  · rfl
  · rw [List.concat_eq_append] at h hlast
    rw [← List.cons_append, ← List.append_assoc] at h
    cases n with
    | update v => exact absurd (List.mem_append_right after' List.mem_cons_self) (hlast v)
    | invalidation i =>
      obtain ⟨hbefore, hi, rfl⟩ := h.of_append_invalidation
      obtain ⟨earlier, v, hns, hv⟩ := hbefore.exists_update hi
      have hpaths := hbefore.last_eq
      rw [hns, lastPaths_append_update, hv] at hpaths
      exact absurd hpaths.symm hi

/-- Updates and invalidations of a balanced ledger are matched. -/
theorem matched (h : Balanced ns last due) : Matched ns := by
  induction h with
  | nil =>
    refine ⟨?_, ?_⟩
    · intro before i after h
      exact absurd h.symm (List.append_ne_nil_of_right_ne_nil before (List.cons_ne_nil _ _))
    · intro before u after h
      exact absurd h.symm (List.append_ne_nil_of_right_ne_nil before (List.cons_ne_nil _ _))
  | @update ns last h v ih =>
    refine ⟨?_, ?_⟩
    · intro before i after hns
      rcases append_singleton_cases hns with ⟨_, _, heq⟩ | ⟨after', _, hns⟩
      · cases heq
      · exact ih.invalidation before i after' hns
    · intro before u after hns hu hafter
      rcases append_singleton_cases hns with ⟨hnil, _⟩ | ⟨after', rfl, rfl⟩
      · exact absurd hnil hafter
      · cases after' with
        | nil => exact absurd h.due_of_update.symm hu
        | cons n after' =>
          obtain ⟨later, hlater⟩ := ih.update before u (n :: after') rfl hu (List.cons_ne_nil _ _)
          exact ⟨later ++ [.update v], by rw [hlater, List.cons_append]⟩
  | @invalidation ns last due h hdue ih =>
    refine ⟨?_, ?_⟩
    · intro before i after hns
      rcases append_singleton_cases hns with ⟨_, rfl, heq⟩ | ⟨after', _, hns⟩
      · rw [Notice.invalidation.inj heq]
        exact ⟨hdue, h.exists_update hdue⟩
      · exact ih.invalidation before i after' hns
    · intro before u after hns hu hafter
      rcases append_singleton_cases hns with ⟨hnil, _⟩ | ⟨after', rfl, rfl⟩
      · exact absurd hnil hafter
      · cases after' with
        | nil =>
          rw [h.due_of_update]
          exact ⟨[], rfl⟩
        | cons n after' =>
          obtain ⟨later, hlater⟩ := ih.update before u (n :: after') rfl hu (List.cons_ne_nil _ _)
          exact ⟨later ++ [.invalidation ⟨due⟩], by rw [hlater, List.cons_append]⟩

/-- Nothing follows the last update as long as its paths are due. -/
theorem eq_nil_iff (h : Balanced ns last due) {before after : List Notice} {u : Update}
    (hns : ns = before ++ .update u :: after) (hu : u.paths ≠ [])
    (hlast : ∀ v, .update v ∉ after) : after = [] ↔ due ≠ [] := by
  subst hns
  constructor
  · rintro rfl
    rw [h.due_of_update]
    exact hu
  · intro hdue
    obtain ⟨earlier, v, hearlier, _⟩ := h.exists_update hdue
    rcases append_singleton_cases hearlier.symm with ⟨hnil, _⟩ | ⟨after', rfl, _⟩
    · exact hnil
    · exact absurd (List.mem_append_right after' List.mem_cons_self) (hlast v)

end Balanced

end DiagnosticRelay
