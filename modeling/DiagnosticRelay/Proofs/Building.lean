import DiagnosticRelay.Compile.Messages

/-!
# When no messages can be made

A result breaks a promise in one of two ways: a diagnostic that is no note has no file, or the flags
were not accurate and the document has no path. `CompileResult.Broken` says so of the result alone,
and `messagesOf` fails exactly on broken results, whatever messages it has made of the diagnostics
before the first bad one (`messagesOf_eq_error_iff`).
-/

namespace DiagnosticRelay

namespace Diagnostic

/-- Whether the diagnostic is retained but has no file to attach it to. -/
def isUnplaced (d : Diagnostic) : Bool := ! (d.severity < 2) && d.location.file.text = ""

theorem message?_of_isUnplaced {d : Diagnostic} (h : d.isUnplaced = true) (lines : LineLengths) :
    d.message? lines = .error (.missingFile d.spelling) := by
  simp only [isUnplaced, Bool.and_eq_true, Bool.not_eq_true', decide_eq_false_iff_not,
    decide_eq_true_eq] at h
  unfold message?
  cases hkind : MessageKind.ofSeverity? d.severity with
  | none => exact absurd (MessageKind.ofSeverity?_eq_none_iff.mp hkind) h.1
  | some kind => simp only [if_pos h.2]

/-- Any other diagnostic is a note, or has a message. -/
theorem exists_message?_of_not_isUnplaced {d : Diagnostic} (h : d.isUnplaced = false)
    (lines : LineLengths) : ∃ m, d.message? lines = .ok m := by
  unfold message?
  cases hkind : MessageKind.ofSeverity? d.severity with
  | none => exact ⟨none, rfl⟩
  | some kind =>
    have hretained : ¬ d.severity < 2 := by
      intro hnote
      rw [MessageKind.ofSeverity?_eq_none_iff.mpr hnote] at hkind
      cases hkind
    have hfile : d.location.file.text ≠ "" := by simpa [isUnplaced, hretained] using h
    simp only [if_neg hfile]
    exact ⟨_, rfl⟩

end Diagnostic

/-- How a result breaks a promise, for a document that has the path or none. -/
inductive CompileResult.Broken : CompileResult → Option Path → BuildError → Prop
  | unplaced {ds : List Diagnostic} {d : Diagnostic} (path : Option Path)
    (h : ds.find? Diagnostic.isUnplaced = some d) : Broken ⟨true, ds⟩ path (.missingFile d.spelling)
  | pathless (ds : List Diagnostic) : Broken ⟨false, ds⟩ none .missingDocumentPath

/-- The first retained diagnostic without a file ends the making of messages. -/
theorem addMessages_eq_error_iff {lines : LineLengths} {u : Update} {ds : List Diagnostic}
    {e : BuildError} : addMessages lines u ds = .error e ↔
      ∃ d, ds.find? Diagnostic.isUnplaced = some d ∧ e = .missingFile d.spelling := by
  induction ds generalizing u with
  | nil => simp [addMessages]
  | cons d ds ih =>
    unfold addMessages
    cases hd : d.isUnplaced with
    | true =>
      rw [Diagnostic.message?_of_isUnplaced hd, List.find?_cons_of_pos hd]
      simp [eq_comm]
    | false =>
      obtain ⟨m, hm⟩ := Diagnostic.exists_message?_of_not_isUnplaced hd lines
      rw [hm, List.find?_cons_of_neg (by simp [hd])]
      cases m with
      | none => exact ih
      | some m => exact ih

/-- No messages can be made exactly of a broken result. -/
theorem messagesOf_eq_error_iff {result : CompileResult} {path : Option Path} {lines : LineLengths}
    {e : BuildError} : messagesOf result path lines = .error e ↔ result.Broken path e := by
  obtain ⟨accurate, ds⟩ := result
  cases accurate with
  | true =>
    have haccurate : messagesOf ⟨true, ds⟩ path lines = addMessages lines .empty ds := rfl
    rw [haccurate, addMessages_eq_error_iff]
    constructor
    · rintro ⟨d, hd, rfl⟩
      exact .unplaced path hd
    · rintro (⟨_, hd⟩ | _)
      exact ⟨_, hd, rfl⟩
  | false =>
    cases path with
    | none =>
      constructor
      · intro h
        obtain rfl : BuildError.missingDocumentPath = e := Except.error.inj h
        exact .pathless ds
      · rintro (_ | _)
        rfl
    | some path =>
      constructor
      · intro h
        cases h
      · intro h
        cases h

end DiagnosticRelay
