import DiagnosticRelay.Text.Pieces

/-!
# Paths

A path keeps the spelling it was given, and two paths are the `Same` when they have the same
components. Repeated slashes, a trailing slash and any `.` but a leading one leave no component, so
`/src//a.m/` and `/src/./a.m` are the same path and `./a.m` and `a.m` are not. `..` is a component
like any other: nothing is resolved.

Sameness is a relation of its own and not the equality of the structure, because the spelling first
stored is the one that is written out again.
-/

namespace DiagnosticRelay

/-- A path in the spelling it was given. -/
structure Path where
  text : String
  deriving DecidableEq, Repr, Inhabited

namespace Path

/-- One step of a path. -/
inductive Component where
  /-- The slash an absolute path starts with. -/
  | root
  /-- A leading `.` of a relative path. -/
  | here
  /-- `..` -/
  | up
  /-- The name of a file or directory. -/
  | name (letters : List Char)
  deriving DecidableEq, Repr

/-- The component a piece between slashes stands for. An empty piece and `.` stand for none. -/
def Component.ofPiece? : List Char → Option Component
  | [] => none
  | ['.'] => none
  | ['.', '.'] => some .up
  | letters => some (.name letters)

/-- The component that only the front of a path can have. -/
def front (letters : List Char) : List Component :=
  match letters with
  | '/' :: _ => [.root]
  | ['.'] => [.here]
  | '.' :: '/' :: _ => [.here]
  | _ => []

/-- The components of a path, from the front. -/
def components (p : Path) : List Component :=
  front p.text.toList ++ (Text.pieces '/' p.text.toList).filterMap Component.ofPiece?

/-- The two spellings name the same path. -/
def Same (p q : Path) : Prop := p.components = q.components

instance (p q : Path) : Decidable (Same p q) :=
  inferInstanceAs (Decidable (p.components = q.components))

@[refl] theorem Same.refl (p : Path) : Same p p := rfl

@[symm] theorem Same.symm {p q : Path} (h : Same p q) : Same q p := Eq.symm h

theorem Same.trans {p q r : Path} (h : Same p q) (h' : Same q r) : Same p r := Eq.trans h h'

/-- The name a path ends in, when its last component is one. -/
def fileName? (p : Path) : Option (List Char) :=
  match p.components.getLast? with
  | some (.name letters) => some letters
  | _ => none

/-- What follows the last dot of a name, unless that dot is missing or is its first letter. -/
def afterLastDot? (letters : List Char) : Option (List Char) :=
  match letters.reverse.dropWhile (· != '.') with
  | '.' :: _ :: _ => some (letters.reverse.takeWhile (· != '.')).reverse
  | _ => none

/-- The extension of the file name. -/
def extension? (p : Path) : Option (List Char) :=
  p.fileName?.bind afterLastDot?

theorem fileName?_congr {p q : Path} (h : Same p q) : p.fileName? = q.fileName? := by
  simp only [fileName?, show p.components = q.components from h]

theorem extension?_congr {p q : Path} (h : Same p q) : p.extension? = q.extension? := by
  rw [extension?, extension?, fileName?_congr h]

/-- The path `name` below `p`. -/
def join (p : Path) (name : String) : Path :=
  if name.startsWith "/" ∨ p.text.isEmpty then ⟨name⟩
  else if p.text.endsWith "/" then ⟨p.text ++ name⟩
  else ⟨p.text ++ "/" ++ name⟩

/-- The first spelling of each path, in order of first occurrence. -/
def firstSpellings : List Path → List Path
  | [] => []
  | p :: ps => p :: (firstSpellings ps).filter fun q => ¬ Same p q

@[simp] theorem firstSpellings_nil : firstSpellings [] = [] := rfl

theorem firstSpellings_cons (p : Path) (ps : List Path) :
    firstSpellings (p :: ps) = p :: (firstSpellings ps).filter fun q => ¬ Same p q := rfl

theorem firstSpellings_eq_nil_iff {ps : List Path} : firstSpellings ps = [] ↔ ps = [] := by
  cases ps <;> simp [firstSpellings]

end Path

end DiagnosticRelay
