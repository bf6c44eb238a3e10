import DiagnosticRelay.DocumentId
import DiagnosticRelay.Compile.Messages

/-!
# Source files

A source file as it was read from disk: its path, the grammar that its extension stands for, and the
length of each line. Lines end at line feeds; a carriage return before one, or at the end of the
last line, does not count. Lengths count characters, up to the largest 32-bit word. A file ending in
a line feed has an empty last line.
-/

namespace DiagnosticRelay

/-- The grammar of files the compiler does not handle. -/
def plainGrammar : String := "text.plain"

/-- The grammar of an extension in lower case. -/
def grammarOfExtension : List Char → String
  | ['c'] | ['h'] => "source.c"
  | ['c', 'c'] | ['c', 'p', 'p'] | ['c', 'x', 'x'] => "source.cpp"
  | ['h', 'h'] | ['h', 'p', 'p'] | ['h', 'x', 'x'] => "source.cpp"
  | ['m'] => "source.objc"
  | ['m', 'm'] => "source.objcpp"
  | _ => plainGrammar

/-- The grammar an editor assigns to a file by its extension, whose ASCII case does not matter. -/
def Path.grammar (p : Path) : String :=
  match p.extension? with
  | some letters => grammarOfExtension (letters.map Char.toLower)
  | none => plainGrammar

theorem Path.grammar_congr {p q : Path} (h : Path.Same p q) : p.grammar = q.grammar := by
  rw [Path.grammar, Path.grammar, Path.extension?_congr h]

/-- A line without the carriage return it may end in. -/
def dropReturn (line : List Char) : List Char :=
  if line.getLast? = some '\r' then line.dropLast else line

def lineLength (line : List Char) : UInt32 :=
  UInt32.ofNat (min (dropReturn line).length (UInt32.size - 1))

def lineLengths (text : List Char) : LineLengths := (Text.pieces '\n' text).map lineLength

/-- A source file read from disk. -/
structure SourceFile where
  id : DocumentId
  path : Path
  grammar : String
  lines : LineLengths
  deriving DecidableEq, Repr

namespace SourceFile

def ofContent (id : DocumentId) (path : Path) (content : String) : SourceFile :=
  ⟨id, path, path.grammar, lineLengths content.toList⟩

/-- The index of the last row, up to the largest 32-bit word. -/
def lastRow (f : SourceFile) : UInt32 := UInt32.ofNat (min f.lines.lastRow (UInt32.size - 1))

/-- The length of a row, 0 for a row beyond the last. -/
def lengthOf (f : SourceFile) (row : UInt32) : UInt32 := f.lines.lengthOf row.toNat

/-- The file's name, or its whole path when that has none. -/
def title (f : SourceFile) : String :=
  match f.path.fileName? with
  | some letters => String.ofList letters
  | none => f.path.text

end SourceFile

end DiagnosticRelay
