import DiagnosticRelay.SourceFile
import Mathlib.Algebra.Group.Nat.Defs

/-!
# Rows of a source file

The lengths of a file's lines follow its text: putting a line feed between two texts puts their
lengths one after the other (`lineLengths_append_cons`), so all that is left to say is how long a
single line is. Writing line ends with a carriage return changes nothing in a text that had none.

A row is a 32-bit word. A file may have more lines than there are rows; then the rows show the lines
as far as they reach (`rowLengths_eq`).
-/

namespace DiagnosticRelay

theorem length_pieces (sep : Char) (cs : List Char) :
    (Text.pieces sep cs).length = cs.count sep + 1 := by
  induction cs using Text.pieces_induction sep with
  | single cs hcs => rw [Text.pieces_eq_singleton hcs, List.count_eq_zero.mpr hcs]; rfl
  | more cs ds hcs ih =>
    rw [Text.pieces_append_cons, List.length_append, ih, Text.pieces_eq_singleton hcs,
      List.count_append, List.count_cons_self, List.count_eq_zero.mpr hcs]
    simp only [List.length_singleton]
    omega

theorem lineLengths_of_line {line : List Char} (h : '\n' ∉ line) :
    lineLengths line = [lineLength line] := by
  rw [lineLengths, Text.pieces_eq_singleton h]
  rfl

theorem lineLengths_append_cons (text more : List Char) :
    lineLengths (text ++ '\n' :: more) = lineLengths text ++ lineLengths more := by
  simp only [lineLengths, Text.pieces_append_cons, List.map_append]

theorem length_lineLengths (text : List Char) :
    (lineLengths text).length = text.count '\n' + 1 := by
  rw [lineLengths, List.length_map, length_pieces]

/-- The length of a line is the number of its characters, without a carriage return at its end. -/
theorem toNat_lineLength (line : List Char) :
    (lineLength line).toNat =
      min (line.length - if line.getLast? = some '\r' then 1 else 0) (2 ^ 32 - 1) := by
  have hlength : (dropReturn line).length =
      line.length - if line.getLast? = some '\r' then 1 else 0 := by
    unfold dropReturn
    split <;> simp
  rw [lineLength, hlength]
  exact UInt32.toNat_ofNat_of_lt (Nat.lt_of_le_of_lt (Nat.min_le_right _ _) (by decide))

/-! ## Carriage returns -/

/-- The text with a carriage return in front of every line feed. -/
def withReturns (text : List Char) : List Char :=
  text.flatMap fun c => if c = '\n' then ['\r', '\n'] else [c]

theorem withReturns_of_line {line : List Char} (h : '\n' ∉ line) : withReturns line = line := by
  induction line with
  | nil => rfl
  | cons c line ih =>
    rw [List.mem_cons, not_or] at h
    rw [withReturns, List.flatMap_cons, if_neg (Ne.symm h.1)]
    exact congrArg (c :: ·) (ih h.2)

theorem withReturns_append_cons (text more : List Char) :
    withReturns (text ++ '\n' :: more) = withReturns text ++ '\r' :: '\n' :: withReturns more := by
  simp [withReturns]

theorem lineLength_concat_return {line : List Char} (h : '\r' ∉ line) :
    lineLength (line ++ ['\r']) = lineLength line := by
  have hdrop : dropReturn (line ++ ['\r']) = line := by
    simp [dropReturn]
  have hself : dropReturn line = line := by
    rw [dropReturn, if_neg]
    intro hlast
    exact h (List.mem_of_getLast? hlast)
  rw [lineLength, lineLength, hdrop, hself]

/-- Line ends may be written with carriage returns. -/
theorem lineLengths_withReturns {text : List Char} (h : '\r' ∉ text) :
    lineLengths (withReturns text) = lineLengths text := by
  induction text using Text.pieces_induction '\n' with
  | single line hline => rw [withReturns_of_line hline]
  | more line more hline ih =>
    have hmore : '\r' ∉ more := fun hm => h (by simp [hm])
    have hplain : '\r' ∉ line := fun hm => h (by simp [hm])
    have hends : '\n' ∉ line ++ ['\r'] := by simp [hline]
    rw [withReturns_append_cons, withReturns_of_line hline, ← List.singleton_append (x := '\r'),
      ← List.append_assoc, lineLengths_append_cons, lineLengths_append_cons, ih hmore,
      lineLengths_of_line hends, lineLengths_of_line hline, lineLength_concat_return hplain]

/-! ## Rows -/

namespace SourceFile

theorem toNat_lastRow (f : SourceFile) :
    f.lastRow.toNat = min (f.lines.length - 1) (2 ^ 32 - 1) :=
  UInt32.toNat_ofNat_of_lt (Nat.lt_of_le_of_lt (Nat.min_le_right _ _) (by decide))

theorem lengthOf_of_lastRow_lt {f : SourceFile} {row : UInt32} (h : f.lastRow < row) :
    f.lengthOf row = 0 := by
  have hrow := row.toNat_lt
  have hlast := UInt32.lt_iff_toNat_lt.mp h
  rw [toNat_lastRow] at hlast
  have hnone : f.lines[row.toNat]? = none := List.getElem?_eq_none (by omega)
  rw [lengthOf, LineLengths.lengthOf, hnone]
  rfl

/-- The lengths of the rows, from the first to the last. -/
def rowLengths (f : SourceFile) : List UInt32 :=
  (List.range (f.lastRow.toNat + 1)).map fun row => f.lengthOf (UInt32.ofNat row)

/-- The rows are the lines, as far as there are numbers for rows. -/
theorem rowLengths_eq {f : SourceFile} (h : f.lines ≠ []) :
    f.rowLengths = f.lines.take (2 ^ 32) := by
  have hlines : 0 < f.lines.length := List.length_pos_iff.mpr h
  have hlast := f.toNat_lastRow
  apply List.ext_getElem
  · rw [rowLengths, List.length_map, List.length_range, List.length_take, hlast]
    omega
  · intro row hrow htake
    rw [List.length_take] at htake
    have hsmall : row < 2 ^ 32 := by omega
    have hword : (UInt32.ofNat row).toNat = row := UInt32.toNat_ofNat_of_lt hsmall
    simp only [rowLengths, List.getElem_map, List.getElem_range, List.getElem_take, lengthOf,
      LineLengths.lengthOf, hword]
    rw [List.getElem?_eq_getElem (by omega)]
    rfl

/-- The rows of the files that are made of texts follow the texts. -/
structure RowsFollow (fileOf : String → SourceFile) : Prop where
  lastRow : ∀ s, s.toList.count '\n' + 1 < 2 ^ 32 →
    (fileOf s).lastRow.toNat = s.toList.count '\n'
  joined : ∀ a b, (fileOf (a ++ "\n" ++ b)).lines = (fileOf a).lines ++ (fileOf b).lines
  /-- The rows up to the last are the lines, the first 2^32 of them if there are more. -/
  shown : ∀ s, (fileOf s).rowLengths = (fileOf s).lines.take (2 ^ 32)
  rowsJoined : ∀ a b, (fileOf (a ++ "\n" ++ b)).rowLengths =
    ((fileOf a).rowLengths ++ (fileOf b).rowLengths).take (2 ^ 32)
  /-- Nothing is cut off as long as there is a row for every line. -/
  rowsJoined_whole : ∀ a b, (a ++ "\n" ++ b).toList.count '\n' + 1 ≤ 2 ^ 32 →
    (fileOf (a ++ "\n" ++ b)).rowLengths = (fileOf a).rowLengths ++ (fileOf b).rowLengths
  single : ∀ s, '\n' ∉ s.toList → ∃ length, (fileOf s).rowLengths = [length] ∧
    length.toNat = min (s.length - if s.toList.getLast? = some '\r' then 1 else 0) (2 ^ 32 - 1)
  returns : ∀ s, '\r' ∉ s.toList →
    (fileOf (.ofList (withReturns s.toList))).lines = (fileOf s).lines ∧
      (fileOf (.ofList (withReturns s.toList))).lastRow = (fileOf s).lastRow
  beyond : ∀ s row, (fileOf s).lastRow < row → (fileOf s).lengthOf row = 0

theorem lines_ofContent (id : DocumentId) (path : Path) (s : String) :
    (ofContent id path s).lines = lineLengths s.toList := rfl

theorem length_lines_ofContent (id : DocumentId) (path : Path) (s : String) :
    (ofContent id path s).lines.length = s.toList.count '\n' + 1 :=
  length_lineLengths s.toList

theorem lines_ofContent_append (id : DocumentId) (path : Path) (a b : String) :
    (ofContent id path (a ++ "\n" ++ b)).lines =
      (ofContent id path a).lines ++ (ofContent id path b).lines := by
  have hlist : (a ++ "\n" ++ b).toList = a.toList ++ '\n' :: b.toList := by simp
  rw [lines_ofContent, hlist, lineLengths_append_cons]
  rfl

theorem rowLengths_ofContent (id : DocumentId) (path : Path) (s : String) :
    (ofContent id path s).rowLengths = (ofContent id path s).lines.take (2 ^ 32) := by
  apply rowLengths_eq
  rw [← List.length_pos_iff, length_lines_ofContent]
  exact Nat.succ_pos _

theorem rowLengths_ofContent_append (id : DocumentId) (path : Path) (a b : String) :
    (ofContent id path (a ++ "\n" ++ b)).rowLengths =
      ((ofContent id path a).rowLengths ++ (ofContent id path b).rowLengths).take (2 ^ 32) := by
  simp only [rowLengths_ofContent, lines_ofContent_append]
  rw [List.take_append, List.take_append, List.take_take, List.take_take, List.length_take]
  congr 2
  omega

theorem ofContent_rowsFollow (id : DocumentId) (path : Path) : RowsFollow (ofContent id path) where
  lastRow s h := by
    rw [toNat_lastRow, length_lines_ofContent]
    omega
  joined := lines_ofContent_append id path
  shown := rowLengths_ofContent id path
  rowsJoined := rowLengths_ofContent_append id path
  rowsJoined_whole a b h := by
    have hlength := length_lines_ofContent id path (a ++ "\n" ++ b)
    rw [lines_ofContent_append, List.length_append] at hlength
    rw [rowLengths_ofContent_append, List.take_of_length_le]
    simp only [rowLengths_ofContent, List.length_append, List.length_take]
    omega
  single s h := by
    refine ⟨lineLength s.toList, ?_, ?_⟩
    · rw [rowLengths_ofContent, lines_ofContent, lineLengths_of_line h]
      rfl
    · rw [toNat_lineLength, String.length_toList]
  returns s h := by
    have hlines : (ofContent id path (.ofList (withReturns s.toList))).lines =
        (ofContent id path s).lines := by
      rw [lines_ofContent, lines_ofContent, String.toList_ofList, lineLengths_withReturns h]
    exact ⟨hlines, by rw [SourceFile.lastRow, SourceFile.lastRow, hlines]⟩
  beyond s row h := lengthOf_of_lastRow_lt h

end SourceFile

end DiagnosticRelay
