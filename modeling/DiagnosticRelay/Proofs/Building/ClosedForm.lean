import DiagnosticRelay.Proofs.Building
import DiagnosticRelay.Proofs.Grouping

/-!
# The messages of a result in closed form

`expectedUpdate` says what is to be published for a result without going through its diagnostics one
by one: the retained diagnostics are those above notes, the first of them without a file is the one
that is named when there is any, and otherwise the update has their messages by file. Making the
messages comes to that (`messagesOf_eq_expectedUpdate`).

Lines enter only by their geometry, the last row and the lengths of the rows up to it. A document
may have any (`LineGeometry.lines`).
-/

namespace DiagnosticRelay

/-- The last row of a document and the lengths of its rows. -/
structure LineGeometry where
  lastRow : Nat
  lengthOf : Nat → UInt32

namespace LineGeometry

/-- The geometry of lines. -/
def ofLines (lines : LineLengths) : LineGeometry := ⟨lines.lastRow, lines.lengthOf⟩

/-- Lines of a geometry, one for each row up to the last. -/
def lines (g : LineGeometry) : LineLengths := (List.range (g.lastRow + 1)).map g.lengthOf

/-- The column where the marking of a whole row stops. -/
def stopOf (g : LineGeometry) (row : UInt32) : UInt32 :=
  if row.toNat ≤ g.lastRow then g.lengthOf row.toNat else 1000

theorem lastRow_lines (g : LineGeometry) : g.lines.lastRow = g.lastRow := by
  simp [lines, LineLengths.lastRow]

theorem lengthOf_lines (g : LineGeometry) {row : Nat} (h : row ≤ g.lastRow) :
    g.lines.lengthOf row = g.lengthOf row := by
  simp [lines, LineLengths.lengthOf, Nat.lt_succ_of_le h]

/-- Lengths of rows past the last one do not count. -/
theorem stopOf_lines (g : LineGeometry) : (ofLines g.lines).stopOf = g.stopOf := by
  funext row
  have hlast : (ofLines g.lines).lastRow = g.lastRow := g.lastRow_lines
  unfold stopOf
  simp only [hlast]
  split
  · next hrow => exact g.lengthOf_lines hrow
  · rfl

end LineGeometry

/-! ## What is expected -/

/-- A reported line as a row, clamped into the numbers that a row can have, which end below 2^32. -/
def clampedRow (line : Int64) : UInt32 := UInt32.ofNat (max 0 (min line.toInt 4294967295)).toNat

namespace Diagnostic

/-- Whether the diagnostic is a warning or graver. -/
def isRetained (d : Diagnostic) : Bool := 2 ≤ d.severity

/-- The span to mark: the first explicit range, or the reported row up to its end. -/
def expectedSpan (g : LineGeometry) (d : Diagnostic) : Span :=
  match d.ranges.bind List.head? with
  | some r => ⟨⟨r.start.line, r.start.column⟩, ⟨r.stop.line, r.stop.column⟩⟩
  | none =>
    let row := clampedRow d.location.line
    ⟨⟨row, 0⟩, ⟨row, g.stopOf row⟩⟩

/-- The message of a retained diagnostic. -/
def expectedMessage (g : LineGeometry) (d : Diagnostic) : Message :=
  ⟨"Clang", if d.severity = 2 then .warning else .error, d.location.file, d.spelling,
    d.expectedSpan g⟩

end Diagnostic

/-- What is to be published for a result. -/
def expectedUpdate (result : CompileResult) (path : Option Path) (g : LineGeometry) :
    Except BuildError Update :=
  if result.accurateFlags then
    let retained := result.diagnostics.filter Diagnostic.isRetained
    match retained.find? fun d => d.location.file.text = "" with
    | some d => .error (.missingFile d.spelling)
    | none => .ok ⟨groupsOf (retained.map (Diagnostic.expectedMessage g))⟩
  else
    match path with
    | none => .error .missingDocumentPath
    | some p => .ok ⟨[(p, [⟨"Clang", .warning, p, missingFlagsText, ⟨⟨0, 0⟩, ⟨1, 0⟩⟩⟩])]⟩

/-! ## One diagnostic -/

theorem rowOfLine_eq (line : Int64) : rowOfLine line = clampedRow line := by
  unfold rowOfLine clampedRow
  congr 1
  have hsize : UInt32.size = 4294967296 := rfl
  omega

namespace Diagnostic

variable {d : Diagnostic}

theorem resolveSpan_eq (d : Diagnostic) (lines : LineLengths) :
    resolveSpan d.location d.ranges lines = d.expectedSpan (.ofLines lines) := by
  have hline : d.location.lineSpan lines = ⟨⟨clampedRow d.location.line, 0⟩,
      ⟨clampedRow d.location.line, (LineGeometry.ofLines lines).stopOf
        (clampedRow d.location.line)⟩⟩ := by
    rw [← rowOfLine_eq]
    rfl
  unfold expectedSpan
  cases d.ranges with
  | none => exact hline
  | some ranges =>
    cases ranges with
    | nil => exact hline
    | cons r ranges => rfl

theorem expectedSpan_lines (g : LineGeometry) :
    expectedSpan (.ofLines g.lines) = expectedSpan g := by
  funext d
  unfold expectedSpan
  rw [g.stopOf_lines]

theorem isUnplaced_eq (d : Diagnostic) :
    d.isUnplaced = (d.isRetained && d.location.file.text = "") := by
  rw [isUnplaced, isRetained, ← decide_not, decide_eq_decide.mpr UInt8.not_lt]

theorem message?_of_not_isRetained (h : d.isRetained = false) (lines : LineLengths) :
    d.message? lines = .ok none := by
  have hnote : d.severity < 2 := by simpa [isRetained] using h
  rw [message?, MessageKind.ofSeverity?_eq_none_iff.mpr hnote]

theorem message?_of_isRetained (h : d.isRetained = true) (hplaced : d.isUnplaced = false)
    (lines : LineLengths) : d.message? lines = .ok (some (d.expectedMessage (.ofLines lines))) := by
  have hgrave : ¬ d.severity < 2 := by simpa [isRetained] using h
  have hfile : ¬ d.location.file.text = "" := by simpa [isUnplaced, hgrave] using hplaced
  have hkind : MessageKind.ofSeverity? d.severity =
      some (if d.severity = 2 then .warning else .error) := by
    rw [MessageKind.ofSeverity?, if_neg hgrave]
    split <;> rfl
  rw [message?, hkind]
  simp only [if_neg hfile, resolveSpan_eq]
  rfl

end Diagnostic

/-! ## All of them -/

/-- When every retained diagnostic has a file, their messages are pushed in turn. -/
theorem addMessages_of_placed {lines : LineLengths} {ds : List Diagnostic}
    (h : ds.find? Diagnostic.isUnplaced = none) (u : Update) :
    addMessages lines u ds = .ok (((ds.filter Diagnostic.isRetained).map
      (Diagnostic.expectedMessage (.ofLines lines))).foldl Update.push u) := by
  induction ds generalizing u with
  | nil => rfl
  | cons d ds ih =>
    obtain ⟨hplaced, hrest⟩ : d.isUnplaced = false ∧ ds.find? Diagnostic.isUnplaced = none := by
      simpa using h
    cases hd : d.isRetained with
    | false =>
      rw [addMessages, Diagnostic.message?_of_not_isRetained hd,
        List.filter_cons_of_neg (by simp [hd])]
      exact ih hrest u
    | true =>
      rw [addMessages, Diagnostic.message?_of_isRetained hd hplaced, List.filter_cons_of_pos hd]
      exact ih hrest _

theorem messagesOf_of_lines (result : CompileResult) (path : Option Path) (lines : LineLengths) :
    messagesOf result path lines = expectedUpdate result path (.ofLines lines) := by
  obtain ⟨accurate, ds⟩ := result
  cases accurate with
  | false => cases path <;> rfl
  | true =>
    have hfirst : (ds.filter Diagnostic.isRetained).find? (fun d => d.location.file.text = "") =
        ds.find? Diagnostic.isUnplaced := by
      rw [List.find?_filter]
      congr 1
      funext d
      rw [Diagnostic.isUnplaced_eq, Bool.decide_and, Bool.decide_eq_true, Bool.decide_eq_true]
    simp only [expectedUpdate, if_true, hfirst]
    cases hfind : ds.find? Diagnostic.isUnplaced with
    | some d => exact messagesOf_eq_error_iff.mpr (.unplaced path hfind)
    | none =>
      show addMessages lines .empty ds = _
      rw [addMessages_of_placed hfind, ← Update.files_ofMessages]
      rfl

theorem expectedUpdate_lines (result : CompileResult) (path : Option Path) (g : LineGeometry) :
    expectedUpdate result path (.ofLines g.lines) = expectedUpdate result path g := by
  have hmessage : Diagnostic.expectedMessage (.ofLines g.lines) = Diagnostic.expectedMessage g := by
    funext d
    rw [Diagnostic.expectedMessage, Diagnostic.expectedSpan_lines]
    rfl
  unfold expectedUpdate
  rw [hmessage]

/-- The update for a result, or the reason why there is none, is the expected one: for all lines,
and so for every geometry that a document can have. -/
theorem messagesOf_eq_expectedUpdate (result : CompileResult) (path : Option Path) :
    (∀ lines, messagesOf result path lines = expectedUpdate result path (.ofLines lines)) ∧
      ∀ g : LineGeometry, messagesOf result path g.lines = expectedUpdate result path g := by
  refine ⟨messagesOf_of_lines result path, ?_⟩
  intro g
  rw [messagesOf_of_lines, expectedUpdate_lines]

-- A note needs no file, and what is reported on the file as a whole is on its first row.
example : messagesOf ⟨true, [⟨1, ⟨⟨""⟩, 0, 0⟩, none, "declared here"⟩,
    ⟨2, ⟨⟨"/src/b.h"⟩, -1, 0⟩, none, "unused"⟩]⟩ none [7] =
      .ok ⟨[(⟨"/src/b.h"⟩, [⟨"Clang", .warning, ⟨"/src/b.h"⟩, "unused",
        .ofCoordinates 0 0 0 7⟩])]⟩ := by rfl

end DiagnosticRelay
