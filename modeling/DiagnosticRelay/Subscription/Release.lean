import DiagnosticRelay.Subscription

/-!
# Releases of subscriptions

The bound on a cascade of releases is never what ends it: a subscription that is let go leaves the
shelf together with the names it lets go, so names in turn and names on the shelf get less together
(`letsGoCount_take`). Hence letting go is determined by three equations without a bound,
`letGo_nil`, `letGo_cons_of_take_none` and `letGo_cons_of_take_some`.
-/

namespace DiagnosticRelay.Shelf

@[simp] theorem letsGoCount_nil : letsGoCount [] = 0 := rfl

@[simp] theorem letsGoCount_cons (entry : String × Held) (entries : List (String × Held)) :
    letsGoCount (entry :: entries) = entry.2.letsGo.length + letsGoCount entries := rfl

/-- Taking an entry out takes out the names that its subscription lets go. -/
theorem letsGoCount_eq_of_take {name : String} {entries : List (String × Held)} {h : Held}
    (hfound : (Table.take name entries).1 = some h) :
    letsGoCount entries = h.letsGo.length + letsGoCount (Table.take name entries).2 := by
  induction entries with
  | nil => cases hfound
  | cons entry entries ih =>
    obtain ⟨n, g⟩ := entry
    by_cases hn : n = name
    · subst hn
      rw [Table.take_cons_self] at hfound ⊢
      rw [letsGoCount_cons, Option.some.inj hfound]
    · rw [Table.take_cons_of_ne hn] at hfound ⊢
      rw [letsGoCount_cons, letsGoCount_cons, ih hfound]
      omega

/-- Taking a subscription off the shelf takes off the names that it lets go. -/
theorem letsGoCount_take {s t : Shelf} {name : String} {h : Held}
    (ht : s.take name = (some h, t)) :
    letsGoCount s.entries = h.letsGo.length + letsGoCount t.entries := by
  obtain ⟨hfound, hrest⟩ := Prod.mk.inj ht
  rw [← hrest]
  exact letsGoCount_eq_of_take hfound

/-- Without a subscription of the name the shelf stays as it is. -/
theorem eq_of_take_none {s t : Shelf} {name : String} (ht : s.take name = (none, t)) : t = s := by
  obtain ⟨hfound, hrest⟩ := Prod.mk.inj ht
  rw [← hrest, Table.take_eq_self hfound]

theorem letGoWithin_of_take_none {s t : Shelf} {name : String} (ht : s.take name = (none, t))
    (n : Nat) (names : List String) :
    letGoWithin (n + 1) (name :: names) s = letGoWithin n names s := by
  rw [letGoWithin, ht, eq_of_take_none ht]

theorem letGoWithin_of_take_some {s t : Shelf} {name : String} {h : Held}
    (ht : s.take name = (some h, t)) (n : Nat) (names : List String) :
    letGoWithin (n + 1) (name :: names) s =
      (h.released name ++ (letGoWithin n (h.letsGo ++ names) t).1,
        (letGoWithin n (h.letsGo ++ names) t).2) := by
  rw [letGoWithin, ht]

/-- Letting go within any sufficient bound comes to the same. -/
theorem letGoWithin_eq {m n : Nat} {names : List String} {s : Shelf}
    (hm : names.length + letsGoCount s.entries ≤ m)
    (hn : names.length + letsGoCount s.entries ≤ n) :
    letGoWithin m names s = letGoWithin n names s := by
  induction m generalizing n names s with
  | zero =>
    cases names with
    | nil => cases n <;> rfl
    | cons name names => simp at hm
  | succ m ih =>
    cases names with
    | nil => cases n <;> rfl
    | cons name names =>
      cases n with
      | zero => simp at hn
      | succ n =>
        rw [List.length_cons] at hm hn
        cases ht : s.take name with
        | mk found t =>
          cases found with
          | none =>
            rw [letGoWithin_of_take_none ht, letGoWithin_of_take_none ht]
            exact ih (by omega) (by omega)
          | some h =>
            have hcount := letsGoCount_take ht
            rw [letGoWithin_of_take_some ht, letGoWithin_of_take_some ht,
              ih (by rw [List.length_append]; omega)
                (by rw [List.length_append]; omega :
                  (h.letsGo ++ names).length + letsGoCount t.entries ≤ n)]

@[simp] theorem letGo_nil (s : Shelf) : s.letGo [] = ([], s) := by
  unfold letGo
  cases ([] : List String).length + letsGoCount s.entries <;> rfl

/-- A name without a subscription is passed over. -/
theorem letGo_cons_of_take_none {s t : Shelf} {name : String} (ht : s.take name = (none, t))
    (names : List String) : s.letGo (name :: names) = s.letGo names := by
  unfold letGo
  rw [List.length_cons, Nat.add_right_comm, letGoWithin_of_take_none ht]

/-- A subscription is released before those that it lets go, and they before the remaining names. -/
theorem letGo_cons_of_take_some {s t : Shelf} {name : String} {h : Held}
    (ht : s.take name = (some h, t)) (names : List String) :
    s.letGo (name :: names) =
      (h.released name ++ (t.letGo (h.letsGo ++ names)).1, (t.letGo (h.letsGo ++ names)).2) := by
  have hcount := letsGoCount_take ht
  unfold letGo
  rw [List.length_cons, Nat.add_right_comm, letGoWithin_of_take_some ht,
    letGoWithin_eq (by rw [List.length_append]; omega) (Nat.le_refl _)]

end DiagnosticRelay.Shelf
