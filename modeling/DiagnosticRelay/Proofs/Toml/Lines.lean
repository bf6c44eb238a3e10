import DiagnosticRelay.Proofs.Toml.Values
import Mathlib.Data.List.DropRight

/-!
# Documents as rows of statements

A document says one thing on a line, or nothing. `LinesText` gives the texts of a row of statements,
with indentation, empty lines, comments and either kind of line end wherever these may stand, and
`parse?_of_text` says that reading such a text is taking the statements one by one.
-/

namespace DiagnosticRelay.Toml

/-- What a line of a document can say. -/
inductive Statement where
  | header (k : Key)
  | entry (k : Key) (t : Tree)

inductive StatementText : Statement → List Char → Prop where
  | header {k : Key} {text : List Char} (h : KeyText k text) :
    StatementText (.header k) ('[' :: (text ++ [']']))
  | entry {k : Key} {t : Tree} {name text : List Char} (hk : KeyText k name)
    (ht : ValueText t text) : StatementText (.entry k t) (name ++ '=' :: text)

/-- The texts of statements, each on a line of its own. -/
inductive LinesText : List Statement → List Char → Prop where
  | nil : LinesText [] []
  | empty {ss : List Statement} {rest text : List Char} (hend : LineEnd rest text)
    (h : LinesText ss text) : LinesText ss rest
  | statement {s : Statement} {ss : List Statement} {blanks words rest text : List Char}
    (hblanks : Blanks blanks) (hwords : StatementText s words) (hend : LineEnd rest text)
    (h : LinesText ss text) : LinesText (s :: ss) (blanks ++ (words ++ rest))

/-- The texts of a document. A byte order mark may come first. -/
inductive DocumentText (ss : List Statement) : String → Prop where
  | plain {text : List Char} (h : LinesText ss text) : DocumentText ss (String.ofList text)
  | marked {text : List Char} (h : LinesText ss text) :
    DocumentText ss (String.ofList ('\uFEFF' :: text))

/-- What has been read when one more statement has. -/
def Progress.after? (p : Progress) : Statement → Option Progress
  | .header k => do some ⟨← p.root.openTable k, k.parts⟩
  | .entry k t => do some { p with root := ← p.root.atHeader (·.insert k t) p.header }

/-! ## One line -/

theorem skipBlank_skipBlank (cs : List Char) : skipBlank (skipBlank cs) = skipBlank cs :=
  List.dropWhile_idempotent (p := isBlank) cs

theorem key_skipBlank (cs : List Char) : key (skipBlank cs) = key cs := by
  rw [key, key, skipBlank_skipBlank]

/-- A line with a statement begins, behind its blanks, with a bracket or a key. -/
theorem StatementText.exists_opening {s : Statement} {blanks words : List Char}
    (hblanks : Blanks blanks) (h : StatementText s words) (rest : List Char) :
    ∃ indent c cs, blanks ++ (words ++ rest) = indent ++ c :: cs ∧ Blanks indent ∧
      (c = '[' ∨ opensKey c = true) := by
  cases h with
  | header h => exact ⟨blanks, '[', _, rfl, hblanks, .inl rfl⟩
  | @entry k t name text hk ht =>
    obtain ⟨indent, c, cs, rfl, hindent, hc⟩ := hk.isKey.exists_opening
    have hall : Blanks (blanks ++ indent) := fun d hd =>
      (List.mem_append.mp hd).elim (hblanks d) (hindent d)
    refine ⟨blanks ++ indent, c, cs ++ '=' :: (text ++ rest), ?_, hall, .inr hc⟩
    simp only [List.append_assoc, List.cons_append]

theorem StatementText.length_pos {s : Statement} {words : List Char} (h : StatementText s words) :
    0 < words.length := by
  cases h with
  | header h => exact Nat.zero_lt_succ _
  | entry hk ht =>
    rw [List.length_append, List.length_cons]
    omega

/-- The text of a key does not go on with a bracket. -/
theorem IsKey.exists_cons_ne_bracket {text : List Char} {k : Key} (h : IsKey text k) :
    ∃ c cs, text = c :: cs ∧ c ≠ '[' := by
  obtain ⟨blanks, c, rest, rfl, hblanks, hc⟩ := h.exists_opening
  cases blanks with
  | nil => exact ⟨c, rest, rfl, ne_of_passes hc (by decide)⟩
  | cons d blanks =>
    exact ⟨d, blanks ++ c :: rest, rfl, ne_of_passes (hblanks d List.mem_cons_self) (by decide)⟩

/-- An entry is read as a key and its value. -/
theorem assignment_append {k : Key} {t : Tree} {name text rest : List Char} (hk : IsKey name k)
    (ht : IsValue text t) (hrest : (endLine? rest).isSome) :
    assignment (some ∘ skipBlank) (value nestingLimit) (skipBlank (name ++ '=' :: (text ++ rest))) =
      some ((k, t), rest) := by
  have hkey := hk '=' (text ++ rest) (.inl rfl)
  have hsign : skipBlank ('=' :: (text ++ rest)) = '=' :: (text ++ rest) :=
    skipBlank_cons (by decide) _
  simp [assignment, key_skipBlank, hkey, hsign, ht rest hrest]

/-- A line with a statement is read by taking the statement. -/
theorem line_append {s : Statement} {blanks words rest : List Char} (hblanks : Blanks blanks)
    (h : StatementText s words) (hrest : (endLine? rest).isSome) (p : Progress) :
    line p (skipBlank (blanks ++ (words ++ rest))) = (p.after? s).map (·, rest) := by
  rw [skipBlank_append hblanks]
  cases h with
  | @header k text h =>
    obtain ⟨c, cs, rfl, hbracket⟩ := h.isKey.exists_cons_ne_bracket
    have hkey := h.isKey ']' rest (.inr rfl)
    have hskip : skipBlank (('[' :: (c :: cs ++ [']'])) ++ rest) =
        '[' :: c :: (cs ++ ']' :: rest) := by
      simp only [List.cons_append, List.append_assoc, List.nil_append]
      exact skipBlank_cons (by decide) _
    rw [hskip]
    rw [List.cons_append] at hkey
    cases hroot : p.root.openTable k <;> simp [line, hbracket, hkey, Progress.after?, hroot]
  | @entry k t name text hk ht =>
    obtain ⟨indent, c, cs, rfl, hindent, hc⟩ := hk.isKey.exists_opening
    have hassignment := assignment_append hk.isKey ht.isValue hrest
    have hskip : skipBlank ((indent ++ c :: cs) ++ '=' :: (text ++ rest)) =
        c :: (cs ++ '=' :: (text ++ rest)) := by
      rw [List.append_assoc, skipBlank_append hindent, List.cons_append,
        skipBlank_cons (isVisible_of_opensKey hc).1]
    have hbracket : c ≠ '[' := ne_of_passes hc (by decide)
    rw [List.append_assoc, List.cons_append, hskip]
    rw [hskip] at hassignment
    cases hroot : p.root.atHeader (·.insert k t) p.header <;>
      simp [line, hbracket, hassignment, Progress.after?, hroot]

/-- A line with a statement is not empty. -/
theorem endLine?_of_statement {s : Statement} {blanks words : List Char} (hblanks : Blanks blanks)
    (h : StatementText s words) (rest : List Char) :
    endLine? (blanks ++ (words ++ rest)) = none := by
  obtain ⟨indent, c, cs, htext, hindent, hc⟩ := h.exists_opening hblanks rest
  have hvisible : IsVisible c := by
    rcases hc with rfl | hc
    · decide
    · exact isVisible_of_opensKey hc
  rw [htext]
  exact endLine?_of_visible hindent hvisible cs

/-! ## All lines -/

theorem linesWithin_of_empty {n : Nat} {p : Progress} {c : Char} {cs rest : List Char}
    (h : endLine? (c :: cs) = some rest) :
    linesWithin (n + 1) p (c :: cs) = linesWithin n p rest := by
  simp [linesWithin, h]

theorem linesWithin_of_line {n : Nat} {p : Progress} {c : Char} {cs : List Char}
    (h : endLine? (c :: cs) = none) :
    linesWithin (n + 1) p (c :: cs) = (do
      let (p, rest) ← line p (skipBlank (c :: cs))
      linesWithin n p (← endLine? rest)) := by
  simp [linesWithin, h]

theorem linesWithin_of_text {ss : List Statement} {text : List Char} (h : LinesText ss text)
    {n : Nat} (hn : text.length ≤ n) (p : Progress) :
    linesWithin n p text = ss.foldlM Progress.after? p := by
  induction h generalizing n p with
  | nil => cases n <;> rfl
  | @empty ss rest text hend h ih =>
    cases rest with
    | nil =>
      obtain rfl : [] = text := Option.some.inj hend.endLine?_eq
      exact ih hn p
    | cons c rest =>
      obtain ⟨n, rfl⟩ := Nat.exists_eq_add_one.mpr (Nat.lt_of_lt_of_le (Nat.zero_lt_succ _) hn)
      have hlt := hend.length_lt (List.cons_ne_nil c rest)
      rw [linesWithin_of_empty hend.endLine?_eq]
      exact ih (by omega) p
  | @statement s ss blanks words rest text hblanks hwords hend h ih =>
    have hnone := endLine?_of_statement hblanks hwords rest
    have hsome := hend.endLine?_eq
    have hline := line_append hblanks hwords (Option.isSome_of_eq_some hsome) p
    have hlt : text.length < (blanks ++ (words ++ rest)).length := by
      have hle := hend.length_le
      have hpos : 0 < words.length := hwords.length_pos
      simp only [List.length_append]
      omega
    obtain ⟨c, cs, hcs⟩ : ∃ c cs, blanks ++ (words ++ rest) = c :: cs :=
      List.exists_cons_of_ne_nil fun hnil => by
        rw [hnil] at hnone
        exact absurd hnone (by decide)
    rw [hcs] at hn hline hnone hlt ⊢
    obtain ⟨n, rfl⟩ := Nat.exists_eq_add_one.mpr (Nat.lt_of_lt_of_le (Nat.zero_lt_succ _) hn)
    rw [linesWithin_of_line hnone, hline, List.foldlM_cons]
    cases hafter : p.after? s with
    | none => rfl
    | some p' => simpa [hsome] using ih (n := n) (by omega) p'

/-- No document that is written as statements begins with a byte order mark. -/
theorem LinesText.head?_ne {ss : List Statement} {text : List Char} (h : LinesText ss text) :
    text.head? ≠ some '\uFEFF' := by
  have hvisible : IsVisible '\uFEFF' := by decide
  cases h with
  | nil => simp
  | @empty _ _ text hend _ =>
    intro hmark
    obtain ⟨cs, rfl⟩ := List.head?_eq_some_iff.mp hmark
    have hnone := endLine?_of_visible blanks_nil hvisible cs
    have hsome := hend.endLine?_eq
    rw [List.nil_append] at hnone
    simp [hnone] at hsome
  | @statement s ss blanks words rest _ hblanks hwords _ _ =>
    obtain ⟨indent, c, cs, htext, hindent, hc⟩ := hwords.exists_opening hblanks rest
    have hopening : c ≠ '\uFEFF' := by
      rcases hc with rfl | hc
      · decide
      · exact ne_of_passes hc (by decide)
    rw [htext]
    cases indent with
    | nil => simpa using hopening
    | cons d indent =>
      have hd : d ≠ '\uFEFF' := ne_of_passes (hindent d List.mem_cons_self) (by decide)
      simpa using hd

/-- Reading a document is taking its statements one by one. -/
theorem parse?_of_text {ss : List Statement} {text : String} (h : DocumentText ss text) :
    parse? text = (ss.foldlM Progress.after? ⟨[], []⟩).map Progress.root := by
  have hread {cs : List Char} (h : LinesText ss cs) :
      (do some (← linesWithin cs.length ⟨[], []⟩ cs).root) =
        (ss.foldlM Progress.after? ⟨[], []⟩).map Progress.root := by
    rw [linesWithin_of_text h (Nat.le_refl _)]
    cases ss.foldlM Progress.after? ⟨[], []⟩ <;> rfl
  cases h with
  | @plain cs h =>
    rw [parse?, String.toList_ofList, ← hread h]
    have hmark := h.head?_ne
    cases cs with
    | nil => rfl
    | cons c cs =>
      have hc : c ≠ '\uFEFF' := by simpa using hmark
      simp [hc]
  | @marked cs h =>
    rw [parse?, String.toList_ofList, ← hread h]
    rfl

end DiagnosticRelay.Toml
