import DiagnosticRelay.Proofs.Toml.Spelling
import Mathlib.Data.List.TakeWhile

/-!
# Blanks, comments and line ends

What may stand between the parts of a document without meaning anything. Within a line these are
blanks; behind what a line says there may be a comment; and inside brackets whole lines of blanks
and comments count for nothing. For each of them the relation gives the texts and a lemma says that
the reader is past such a text.
-/

namespace DiagnosticRelay.Toml

/-- A row of blanks. -/
def Blanks (text : List Char) : Prop := ∀ c ∈ text, isBlank c = true

/-- Nothing, or a comment as long as its line. -/
inductive Remark : List Char → Prop where
  | none : Remark []
  | comment {letters : List Char} (h : ∀ c ∈ letters, isPlain c = true) : Remark ('#' :: letters)

/-- The characters that end a line. -/
inductive Newline : List Char → Prop where
  | feed : Newline ['\n']
  | returnFeed : Newline ['\r', '\n']

/-- What is left of a line that has said what it says, and the text after that line. The last line
of a text need not be ended. -/
inductive LineEnd : List Char → List Char → Prop where
  | newline {blanks remark ending : List Char} (hblanks : Blanks blanks) (hremark : Remark remark)
    (hending : Newline ending) (text : List Char) :
    LineEnd (blanks ++ (remark ++ (ending ++ text))) text
  | last {blanks remark : List Char} (hblanks : Blanks blanks) (hremark : Remark remark) :
    LineEnd (blanks ++ remark) []

/-- Lines that hold nothing, up to the next part on one of them. -/
inductive Gap : List Char → Prop where
  | nil : Gap []
  | blank {c : Char} {text : List Char} (hc : isBlank c = true) (h : Gap text) : Gap (c :: text)
  | newline {ending text : List Char} (hending : Newline ending) (h : Gap text) :
    Gap (ending ++ text)
  | comment {letters ending text : List Char} (hletters : ∀ c ∈ letters, isPlain c = true)
    (hending : Newline ending) (h : Gap text) : Gap ('#' :: (letters ++ (ending ++ text)))

/-- Whether a character begins something else than blanks, a comment or the end of a line. -/
def IsVisible (c : Char) : Prop := isBlank c = false ∧ c ≠ '#' ∧ c ≠ '\n' ∧ c ≠ '\r'

instance : DecidablePred IsVisible := fun _ => inferInstanceAs (Decidable (_ ∧ _))

/-! ## Within a line -/

theorem blanks_nil : Blanks [] := fun _ h => absurd h List.not_mem_nil

theorem skipBlank_append {blanks : List Char} (h : Blanks blanks) (rest : List Char) :
    skipBlank (blanks ++ rest) = skipBlank rest := List.dropWhile_append_of_pos h

theorem skipBlank_cons {c : Char} (h : isBlank c = false) (rest : List Char) :
    skipBlank (c :: rest) = c :: rest := List.dropWhile_cons_of_neg (by simp [h])

theorem skipBlank_newline {ending : List Char} (h : Newline ending) (rest : List Char) :
    skipBlank (ending ++ rest) = ending ++ rest := by
  cases h <;> rfl

/-- A comment is read up to the end of its line. -/
theorem dropWhile_isPlain {letters ending : List Char} (h : ∀ c ∈ letters, isPlain c = true)
    (hending : Newline ending) (rest : List Char) :
    (letters ++ (ending ++ rest)).dropWhile isPlain = ending ++ rest := by
  rw [List.dropWhile_append_of_pos h]
  cases hending <;> rfl

/-- The rest of a line is read up to the text after the line. -/
theorem LineEnd.endLine?_eq {rest text : List Char} (h : LineEnd rest text) :
    endLine? rest = some text := by
  cases h with
  | newline hblanks hremark hending text =>
    rw [endLine?, skipBlank_append hblanks]
    cases hremark with
    | none =>
      rw [List.nil_append, skipBlank_newline hending]
      cases hending <;> rfl
    | comment hletters =>
      rw [List.cons_append, skipBlank_cons rfl]
      simp only [dropWhile_isPlain hletters hending]
      cases hending <;> rfl
  | @last _ remark hblanks hremark =>
    rw [endLine?, skipBlank_append hblanks]
    cases hremark with
    | none => rfl
    | @comment letters hletters =>
      have hall : letters.dropWhile isPlain = [] := List.dropWhile_eq_nil_iff.mpr hletters
      rw [skipBlank_cons rfl]
      simp only [hall]

/-- A visible character is not the rest of a line. -/
theorem endLine?_of_visible {blanks : List Char} (hblanks : Blanks blanks) {c : Char}
    (hc : IsVisible c) (rest : List Char) : endLine? (blanks ++ c :: rest) = none := by
  obtain ⟨hblank, hhash, hfeed, hreturn⟩ := hc
  rw [endLine?, skipBlank_append hblanks, skipBlank_cons hblank]
  simp [hhash, newline?, hfeed, hreturn]

/-- The text after a line is shorter, unless nothing was left. -/
theorem LineEnd.length_lt {rest text : List Char} (h : LineEnd rest text) (hrest : rest ≠ []) :
    text.length < rest.length := by
  cases h with
  | newline _ _ hending =>
    cases hending <;> simp only [List.length_append, List.length_cons, List.length_nil] <;> omega
  | last => exact List.length_pos_iff.mpr hrest

theorem LineEnd.length_le {rest text : List Char} (h : LineEnd rest text) :
    text.length ≤ rest.length := by
  cases rest with
  | nil =>
    obtain rfl : [] = text := Option.some.inj h.endLine?_eq
    exact Nat.le_refl _
  | cons c rest => exact Nat.le_of_lt (h.length_lt (List.cons_ne_nil c rest))

/-! ## Over lines -/

theorem skipGap_newline {ending : List Char} (h : Newline ending) (isComment : Bool)
    (rest : List Char) : skipGap isComment (ending ++ rest) = skipGap false rest := by
  cases h <;> cases isComment <;> rfl

theorem skipGap_comment {letters : List Char} (h : ∀ c ∈ letters, isPlain c = true)
    (rest : List Char) : skipGap true (letters ++ rest) = skipGap true rest := by
  induction letters with
  | nil => rfl
  | cons c letters ih =>
    have hc : isPlain c = true := h c List.mem_cons_self
    have hletters := ih fun d hd => h d (List.mem_cons_of_mem c hd)
    have hfeed : c ≠ '\n' := by
      rintro rfl
      exact absurd hc (by decide)
    have hreturn : c ≠ '\r' := by
      rintro rfl
      exact absurd hc (by decide)
    simp [skipGap, hreturn, hc, hletters]

/-- What holds nothing is skipped. -/
theorem Gap.gap?_append {gap : List Char} (h : Gap gap) (rest : List Char) :
    gap? (gap ++ rest) = gap? rest := by
  induction h with
  | nil => rfl
  | @blank c text hc _ ih =>
    have hfeed : c ≠ '\n' := by
      rintro rfl
      exact absurd hc (by decide)
    have hreturn : c ≠ '\r' := by
      rintro rfl
      exact absurd hc (by decide)
    simpa [gap?, skipGap, hfeed, hreturn, hc] using ih
  | newline hending _ ih =>
    rw [gap?, List.append_assoc, skipGap_newline hending]
    exact ih
  | @comment letters ending text hletters hending _ ih =>
    rw [gap?, List.cons_append, List.append_assoc, List.append_assoc]
    calc
      skipGap false ('#' :: (letters ++ (ending ++ (text ++ rest)))) =
          skipGap true (letters ++ (ending ++ (text ++ rest))) := rfl
      _ = skipGap false (text ++ rest) := by
        rw [skipGap_comment hletters, skipGap_newline hending]
      _ = gap? rest := ih

/-- A gap ends in front of a visible character. -/
theorem Gap.gap?_visible {gap : List Char} (h : Gap gap) {c : Char} (hc : IsVisible c)
    (rest : List Char) : gap? (gap ++ c :: rest) = some (c :: rest) := by
  obtain ⟨hblank, hhash, hfeed, hreturn⟩ := hc
  rw [h.gap?_append]
  simp [gap?, skipGap, hblank, hhash, hreturn]

end DiagnosticRelay.Toml
