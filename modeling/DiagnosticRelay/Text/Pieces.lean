/-!
# Texts cut at a separator

`pieces sep cs` lists what stands between the separators of `cs`. A text without a separator is its
own only piece, so there is always at least one, and a separator at the end leaves an empty last
piece. Paths are cut at their slashes and documents at their line feeds with it.
-/

namespace DiagnosticRelay.Text

/-- Puts a character in front of the first piece. -/
def consFirst (c : Char) : List (List Char) → List (List Char)
  | [] => [[c]]
  | p :: ps => (c :: p) :: ps

/-- What stands between the separators. -/
def pieces (sep : Char) : List Char → List (List Char)
  | [] => [[]]
  | c :: cs => if c = sep then [] :: pieces sep cs else consFirst c (pieces sep cs)

@[simp] theorem pieces_nil (sep : Char) : pieces sep [] = [[]] := rfl

theorem pieces_cons_self (sep : Char) (cs : List Char) :
    pieces sep (sep :: cs) = [] :: pieces sep cs := by
  simp [pieces]

theorem pieces_cons_of_ne {sep c : Char} (h : c ≠ sep) (cs : List Char) :
    pieces sep (c :: cs) = consFirst c (pieces sep cs) := by
  simp [pieces, h]

theorem pieces_ne_nil (sep : Char) (cs : List Char) : pieces sep cs ≠ [] := by
  cases cs with
  | nil => simp
  | cons c cs =>
    by_cases h : c = sep
    · simp [pieces, h]
    · rw [pieces_cons_of_ne h]
      cases pieces sep cs <;> simp [consFirst]

/-- The pieces are those of the library's splitting. -/
theorem pieces_eq_splitOn (sep : Char) (cs : List Char) : pieces sep cs = cs.splitOn sep := by
  induction cs with
  | nil => rfl
  | cons c cs ih =>
    rw [List.splitOn_cons_eq_if_modifyHead, ← ih]
    by_cases h : c = sep
    · rw [h, pieces_cons_self, if_pos (BEq.refl sep)]
    · rw [pieces_cons_of_ne h, if_neg (by simpa using h)]
      cases hp : pieces sep cs with
      | nil => exact absurd hp (pieces_ne_nil sep cs)
      | cons p ps => rfl

/-- A text without the separator is its only piece. -/
theorem pieces_eq_singleton {sep : Char} {cs : List Char} (h : sep ∉ cs) :
    pieces sep cs = [cs] := by
  rw [pieces_eq_splitOn, List.splitOn_eq_singleton h]

/-- A separator cuts a text in two. -/
theorem pieces_append_cons (sep : Char) (cs ds : List Char) :
    pieces sep (cs ++ sep :: ds) = pieces sep cs ++ pieces sep ds := by
  simp only [pieces_eq_splitOn, List.splitOn_append_cons_self]

/-- A text either has no separator or is a piece and, behind the first separator, a text. -/
@[elab_as_elim]
theorem pieces_induction (sep : Char) {motive : List Char → Prop}
    (single : ∀ cs, sep ∉ cs → motive cs)
    (more : ∀ cs ds, sep ∉ cs → motive ds → motive (cs ++ sep :: ds)) (cs : List Char) :
    motive cs := by
  by_cases h : sep ∈ cs
  · obtain ⟨as, bs, hcs, has⟩ := List.eq_append_cons_of_mem h
    rw [hcs]
    exact more as bs has (pieces_induction sep single more bs)
  · exact single cs h
termination_by cs.length
decreasing_by
  rw [hcs, List.length_append, List.length_cons]
  omega

theorem length_le_of_mem_pieces {sep : Char} {cs piece : List Char}
    (h : piece ∈ pieces sep cs) : piece.length ≤ cs.length := by
  induction cs using pieces_induction sep with
  | single cs hcs =>
    rw [pieces_eq_singleton hcs] at h
    exact Nat.le_of_eq (congrArg List.length (List.mem_singleton.mp h))
  | more cs ds hcs ih =>
    rw [pieces_append_cons, pieces_eq_singleton hcs] at h
    rw [List.length_append, List.length_cons]
    rcases List.mem_append.mp h with h | h
    · have heq := List.mem_singleton.mp h
      subst heq
      exact Nat.le_add_right _ _
    · have hle := ih h
      omega

end DiagnosticRelay.Text
