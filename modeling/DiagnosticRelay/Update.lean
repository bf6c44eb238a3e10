import DiagnosticRelay.Message

/-!
# Updates and invalidations

An update carries messages grouped by file, files in the order they were first reported. An empty
update has a meaning: the files reported before have no messages left. An invalidation asks to clear
every message published before for the listed files.

Files are told apart by `Path.Same`, and a file is listed under the first spelling it was reported
with; each message keeps its own spelling.
-/

namespace DiagnosticRelay

/-- Messages grouped by file. -/
structure Update where
  files : List (Path × List Message)
  deriving DecidableEq, Repr, Inhabited

namespace Update

/-- The update without messages. -/
def empty : Update := ⟨[]⟩

/-- The files with a message added to the first one of its path, or as a file of its own. -/
def insert (m : Message) : List (Path × List Message) → List (Path × List Message)
  | [] => [(m.path, [m])]
  | (p, ms) :: files =>
    if Path.Same p m.path then (p, ms ++ [m]) :: files else (p, ms) :: insert m files

def push (u : Update) (m : Message) : Update := ⟨insert m u.files⟩

/-- The update built by pushing the messages in turn. -/
def ofMessages (ms : List Message) : Update := ms.foldl push empty

/-- The files carrying messages, in first-reported order. -/
def paths (u : Update) : List Path := u.files.map Prod.fst

/-- The messages of a file, in any spelling of its path. -/
def messagesFor? (u : Update) (p : Path) : Option (List Message) :=
  (u.files.find? fun entry => Path.Same entry.1 p).map Prod.snd

/-- All messages, file by file. -/
def messages (u : Update) : List Message := u.files.flatMap Prod.snd

def countKind (u : Update) (kind : MessageKind) : Nat :=
  u.messages.countP fun m => m.kind = kind

def errorCount (u : Update) : Nat := u.countKind .error

def warningCount (u : Update) : Nat := u.countKind .warning

/-- The number of messages. -/
def totalCount (u : Update) : Nat := u.messages.length

/-- Whether no file carries messages. -/
def isEmpty (u : Update) : Bool := u.files.isEmpty

/-- The update as it is written: one field for each file. -/
def toJson (u : Update) : Json.Value :=
  .record (u.files.map fun entry => (entry.1.text, .list (entry.2.map Message.toJson)))

@[simp] theorem ofMessages_nil : ofMessages [] = empty := rfl

theorem ofMessages_append_singleton (ms : List Message) (m : Message) :
    ofMessages (ms ++ [m]) = (ofMessages ms).push m := by
  simp [ofMessages]

@[simp] theorem paths_empty : empty.paths = [] := rfl

theorem isEmpty_iff {u : Update} : u.isEmpty ↔ u.paths = [] := by
  simp [isEmpty, paths]

end Update

/-- A request to clear all messages of some files. -/
structure Invalidation where
  paths : List Path
  deriving DecidableEq, Repr, Inhabited

def Invalidation.fields (i : Invalidation) : List (String × Json.Value) :=
  [("scope", .text fileScope), ("filePaths", .list (i.paths.map fun p => .text p.text))]

def Invalidation.toJson (i : Invalidation) : Json.Value := .record i.fields

/-- What listeners are told: an update or an invalidation. -/
inductive Notice where
  | update (u : Update)
  | invalidation (i : Invalidation)
  deriving DecidableEq, Repr

/-- The notice as one written event. -/
def Notice.toJson : Notice → Json.Value
  | .update u => .record [("event", .text "update"), ("files", u.toJson)]
  | .invalidation i => .record (("event", .text "invalidation") :: i.fields)

namespace Notice

/-- Whether a path is in the notice, in that spelling. -/
def mentions (p : Path) : Notice → Bool
  | .update u => u.files.any fun entry => entry.1 = p || entry.2.any fun m => m.path = p
  | .invalidation i => i.paths.contains p

/-- What is written of a notice before its first path. -/
def opening : Notice → String
  | .update _ => "\x7b\"event\":\"update\",\"files\":\x7b"
  | .invalidation _ => "\x7b\"event\":\"invalidation\",\"scope\":\"file\",\"filePaths\":["

end Notice

end DiagnosticRelay
