import DiagnosticRelay.Path

/-!
# Files

What is needed of a file system: the text of a file, or why there is none, and the path a file
really has. A `FileTree` is a file system of a single directory, with the files below it by name;
names are resolved against it as they would be on a disk, so `..` leaves the directory that precedes
it, which has to be there.

The path a file really has is made of bytes, and these need not be a text. Such a path is equal to
no path that is a text and cannot be written, so `RealPath.nameBeside` lets a path stand for it that
none of the paths it may meet is equal to.
-/

namespace DiagnosticRelay

/-- Why a file cannot be read as text. -/
inductive ReadFailure where
  | missing
  | isDirectory
  | notText
  /-- Another cause in the words of the system. -/
  | other (message : String)
  deriving DecidableEq, Repr

def ReadFailure.message : ReadFailure → String
  | .missing => "No such file or directory (os error 2)"
  | .isDirectory => "Is a directory (os error 21)"
  | .notText => "stream did not contain valid UTF-8"
  | .other message => message

/-- What is found under a name. -/
inductive Body where
  | directory
  | bytes (content : ByteArray)
  /-- Something that is there but cannot be read, with the cause in the words of the system. -/
  | unreadable (message : String)
  /-- Something that cannot even be looked at, as below a directory that may not be searched. -/
  | hidden (message : String)

namespace Body

/-- A file with a text as its content. -/
def ofText (s : String) : Body := .bytes s.toUTF8

/-- Whether one can tell that it is there. -/
def isSeen : Body → Bool
  | .hidden _ => false
  | .directory | .bytes _ | .unreadable _ => true

def text : Body → Except ReadFailure String
  | .directory => .error .isDirectory
  | .unreadable message | .hidden message => .error (.other message)
  | .bytes content =>
    match String.fromUTF8? content with
    | some s => .ok s
    | none => .error .notText

end Body

/-- The path a file really has: absolute, without links and dots. -/
inductive RealPath where
  | text (path : Path)
  /-- A path that is not a text, in the spelling in which it is shown. -/
  | garbled (shown : Path)
  deriving DecidableEq, Repr

namespace RealPath

/-- The spelling in which a path is shown. -/
def shown : RealPath → Path
  | .text path => path
  | .garbled shown => shown

/-- The length of the spellings of some paths together. -/
def spelledLength (paths : List Path) : Nat := paths.foldr (fun p n => p.text.length + n) 0

/-- A directory with a longer name than each of some paths is spelled. -/
def aside (others : List Path) : String :=
  String.ofList ('/' :: List.replicate (spelledLength others + 1) 'x')

/-- The name of a path beside some others. A path that is not a text goes by the spelling in which
it is shown, below a directory that none of the others is in. -/
def nameBeside : RealPath → List Path → Path
  | .text path, _ => path
  | .garbled shown, others => ⟨aside others ++ "/" ++ shown.text⟩

end RealPath

/-- A file system as a program sees it. -/
structure FileSystem where
  /-- The text of a file. -/
  read : Path → Except ReadFailure String
  realPath : Path → RealPath

/-- A directory and what is below it. -/
structure FileTree where
  /-- The absolute path of the directory. -/
  base : String
  /-- What is below it, by the names on the way. -/
  entries : List (List String × Body)

namespace FileTree

/-- The tree of a directory with files by relative path. -/
def ofFiles (base : String) (files : List (String × Body)) : FileTree :=
  ⟨base, files.map fun entry =>
    ((Text.pieces '/' entry.1.toList).map String.ofList, entry.2)⟩

/-- What is found at a place. Names on the way to an entry are directories. -/
def find? (t : FileTree) (place : List String) : Option Body :=
  match t.entries.find? fun entry => entry.1 = place with
  | some entry => some entry.2
  | none =>
    if place.isEmpty || t.entries.any fun entry => place.isPrefixOf entry.1 then some .directory
    else none

/-- Whether there is a directory at a place. -/
def isDirectory (t : FileTree) (place : List String) : Bool :=
  match t.find? place with
  | some .directory => true
  | _ => false

/-- The place that a piece of a path leads to from another place. -/
def descend (t : FileTree) (place : List String) (piece : List Char) : Option (List String) :=
  if ! t.isDirectory place then none
  else if piece = [] ∨ piece = ['.'] then some place
  else if piece = ['.', '.'] then (if place.isEmpty then none else some place.dropLast)
  else
    let next := place ++ [String.ofList piece]
    if (t.find? next).isSome then some next else none

/-- The place a relative path leads to. -/
def resolve? (t : FileTree) (p : Path) : Option (List String) :=
  if p.text.isEmpty || p.text.startsWith "/" then none
  else (Text.pieces '/' p.text.toList).foldlM t.descend []

/-- The text of the file a path leads to. -/
def read (t : FileTree) (p : Path) : Except ReadFailure String :=
  match (t.resolve? p).bind t.find? with
  | none => .error .missing
  | some body => body.text

/-- The absolute path of a file. One that is not there keeps the path it was given. -/
def realPath (t : FileTree) (p : Path) : RealPath :=
  match t.resolve? p with
  | none => .text p
  | some place => .text ⟨"/".intercalate (t.base :: place)⟩

def fileSystem (t : FileTree) : FileSystem := ⟨t.read, t.realPath⟩

end FileTree

end DiagnosticRelay
