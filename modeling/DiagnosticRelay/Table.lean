/-!
# Tables

A table is a list of entries, each a name and what it stands for. An entry can be taken out, after
which the table is one entry shorter; of several entries of a name the first one counts.
-/

namespace DiagnosticRelay.Table

variable {κ α : Type} [DecidableEq κ]

/-- Takes the first entry of a name out of a table. -/
def take (name : κ) : List (κ × α) → Option α × List (κ × α)
  | [] => (none, [])
  | (n, a) :: rest =>
    if n = name then (some a, rest)
    else ((take name rest).1, (n, a) :: (take name rest).2)

@[simp] theorem take_nil (name : κ) : take name ([] : List (κ × α)) = (none, []) := rfl

theorem take_cons_self (name : κ) (a : α) (rest : List (κ × α)) :
    take name ((name, a) :: rest) = (some a, rest) := by
  simp [take]

theorem take_cons_of_ne {n name : κ} (h : n ≠ name) (a : α) (rest : List (κ × α)) :
    take name ((n, a) :: rest) = ((take name rest).1, (n, a) :: (take name rest).2) := by
  simp [take, h]

/-- Taking an entry out leaves one entry less. -/
theorem length_take {name : κ} {table : List (κ × α)} {a : α} (h : (take name table).1 = some a) :
    table.length = (take name table).2.length + 1 := by
  induction table with
  | nil => simp at h
  | cons entry rest ih =>
    obtain ⟨n, b⟩ := entry
    by_cases hn : n = name
    · subst hn
      rw [take_cons_self]
      simp
    · rw [take_cons_of_ne hn] at h ⊢
      simp [ih h]

/-- Without an entry of the name the table stays as it is. -/
theorem take_eq_self {name : κ} {table : List (κ × α)} (h : (take name table).1 = none) :
    (take name table).2 = table := by
  induction table with
  | nil => rfl
  | cons entry rest ih =>
    obtain ⟨n, b⟩ := entry
    by_cases hn : n = name
    · subst hn
      rw [take_cons_self] at h
      simp at h
    · rw [take_cons_of_ne hn] at h ⊢
      rw [ih h]

/-- The rest of a table is a part of it, in the same order. -/
theorem take_sublist (name : κ) (table : List (κ × α)) : (take name table).2.Sublist table := by
  induction table with
  | nil => simp
  | cons entry rest ih =>
    obtain ⟨n, b⟩ := entry
    by_cases hn : n = name
    · subst hn
      rw [take_cons_self]
      exact List.sublist_cons_self _ _
    · rw [take_cons_of_ne hn]
      exact ih.cons_cons _

/-- Where no name comes twice, taking an entry out leaves the entries of the other names. -/
theorem take_eq_filter {name : κ} {table : List (κ × α)} (h : (table.map Prod.fst).Nodup) :
    (take name table).2 = table.filter (·.1 ≠ name) := by
  induction table with
  | nil => simp
  | cons entry rest ih =>
    obtain ⟨n, a⟩ := entry
    obtain ⟨hn, hrest⟩ := List.nodup_cons.mp h
    by_cases heq : n = name
    · subst heq
      have hkept : rest.filter (·.1 ≠ n) = rest := by
        apply List.filter_eq_self.mpr
        intro e he
        simpa using fun hsame => hn (List.mem_map.mpr ⟨e, he, hsame⟩)
      rw [take_cons_self, List.filter_cons_of_neg (by simp), hkept]
    · simp [take_cons_of_ne heq, heq, ih hrest]

/-- Where no name comes twice, what is taken out is what the name stands for. -/
theorem take_eq_some_iff (name : κ) {table : List (κ × α)} (a : α)
    (h : (table.map Prod.fst).Nodup) : (take name table).1 = some a ↔ (name, a) ∈ table := by
  induction table with
  | nil => simp
  | cons entry rest ih =>
    obtain ⟨n, b⟩ := entry
    obtain ⟨hn, hrest⟩ := List.nodup_cons.mp h
    by_cases heq : n = name
    · subst heq
      have hnot : (n, a) ∉ rest := fun hmem => hn (List.mem_map.mpr ⟨_, hmem, rfl⟩)
      simp [take_cons_self, hnot, eq_comm]
    · simp [take_cons_of_ne heq, ih hrest, Ne.symm heq]

end DiagnosticRelay.Table
