import DiagnosticRelay.Compile.Result
import DiagnosticRelay.Update

/-!
# From a compile result to messages

`messagesOf` turns a compile result into the update to publish. Notes are dropped; every other
diagnostic becomes a message on the file it was reported in. A result without accurate flags becomes
a single warning on the document itself, whatever its diagnostics are.

A retained diagnostic without a file, and a document without a path where one is needed, break what
compilers and hosts promise; then nothing at all is published. The first such diagnostic in order is
the one named.
-/

namespace DiagnosticRelay

/-- The lengths of a document's lines, row by row. -/
abbrev LineLengths := List UInt32

namespace LineLengths

/-- The index of the last row. A document without lines still has row 0. -/
def lastRow (lines : LineLengths) : Nat := lines.length - 1

/-- The length of a row, 0 when there is no such row. -/
def lengthOf (lines : LineLengths) (row : Nat) : UInt32 := lines[row]?.getD 0

end LineLengths

/-- The provider all messages are stamped with. -/
def providerName : String := "Clang"

/-- The text of the warning that stands for the diagnostics of a pass without accurate flags. -/
def missingFlagsText : String :=
  "Diagnostics are disabled due to lack of compilation flags. " ++
    "Build this file with Buck, or create a compile_commands.json file manually."

/-- The span of that warning: the first line. -/
def missingFlagsSpan : Span := .ofCoordinates 0 0 1 0

/-- The column where a span on a row past the end of the document stops. -/
def unboundedWidth : UInt32 := 1000

/-- A reported line as a row: negative lines are row 0, and lines beyond the last word the last. -/
def rowOfLine (line : Int64) : UInt32 :=
  UInt32.ofNat (min line.toInt.toNat (UInt32.size - 1))

namespace Location

/-- The whole of the reported line, or a stretch of fixed width past the end of the document. -/
def lineSpan (l : Location) (lines : LineLengths) : Span :=
  let row := rowOfLine l.line
  let stop := if row.toNat ≤ lines.lastRow then lines.lengthOf row.toNat else unboundedWidth
  .ofCoordinates row 0 row stop

end Location

namespace SourceRange

/-- An explicit range as a span, as it was reported. -/
def span (r : SourceRange) : Span :=
  .ofCoordinates r.start.line r.start.column r.stop.line r.stop.column

end SourceRange

/-- The span to mark: the first explicit range, else the reported line. -/
def resolveSpan (location : Location) (ranges : Option (List SourceRange)) (lines : LineLengths) :
    Span :=
  match ranges with
  | some (r :: _) => r.span
  | _ => location.lineSpan lines

/-- Why no messages can be made of a result. -/
inductive BuildError where
  /-- A warning or error was reported without a file. -/
  | missingFile (spelling : String)
  /-- The warning on missing flags needs a path, and the document has none. -/
  | missingDocumentPath
  deriving DecidableEq, Repr

def BuildError.message : BuildError → String
  | .missingFile spelling => "diagnostic has no file path: " ++ spelling
  | .missingDocumentPath => "cannot attach diagnostics to a document without a path"

namespace Diagnostic

/-- The message of a diagnostic, `none` for a note. -/
def message? (d : Diagnostic) (lines : LineLengths) : Except BuildError (Option Message) :=
  match MessageKind.ofSeverity? d.severity with
  | none => .ok none
  | some kind =>
    if d.location.file.text = "" then .error (.missingFile d.spelling)
    else .ok (some ⟨providerName, kind, d.location.file, d.spelling,
      resolveSpan d.location d.ranges lines⟩)

end Diagnostic

def addMessages (lines : LineLengths) : Update → List Diagnostic → Except BuildError Update
  | u, [] => .ok u
  | u, d :: ds =>
    match d.message? lines with
    | .error e => .error e
    | .ok none => addMessages lines u ds
    | .ok (some m) => addMessages lines (u.push m) ds

/-- The warning on a document that was compiled without accurate flags. -/
def missingFlagsMessage (path : Path) : Message :=
  ⟨providerName, .warning, path, missingFlagsText, missingFlagsSpan⟩

/-- The update to publish for a result. -/
def messagesOf (result : CompileResult) (path : Option Path) (lines : LineLengths) :
    Except BuildError Update :=
  if result.accurateFlags then addMessages lines .empty result.diagnostics
  else
    match path with
    | none => .error .missingDocumentPath
    | some path => .ok (Update.empty.push (missingFlagsMessage path))

end DiagnosticRelay
