import DiagnosticRelay.Toml.Tree

/-!
# Reading TOML documents

`Toml.parse?` gives the fields of a document's root table. A document is read line by line: a line
opens a table by a header, gives a key its value, or holds at most a comment. Values nest in lists
and inline tables, at most `nestingLimit` deep; both may run over several lines, with comments and a
comma after the last element.
-/

namespace DiagnosticRelay.Toml

/-- How deep values may nest. -/
def nestingLimit : Nat := 80

/-- The elements of a list or inline table up to its closing character, of at most so many, each
added to what has been read. -/
def elementsWithin {α : Type} (add : α → Reader α) (closer : Char) : Nat → α → Reader α
  | 0, _, _ => none
  | n + 1, a, cs => do
    match ← gap? cs with
    | [] => none
    | c :: rest =>
      if c = closer then some (a, rest)
      else do
        let (a, rest) ← add a (c :: rest)
        match ← gap? rest with
        | ',' :: rest => elementsWithin add closer n a rest
        | c :: rest => if c = closer then some (a, rest) else none
        | [] => none

/-- A key, its equals sign and its value, with what may be skipped around the sign. -/
def assignment (skip? : List Char → Option (List Char)) (value : Reader Tree) :
    Reader (Key × Tree) := fun cs => do
  let (k, rest) ← key cs
  let '=' :: rest ← skip? rest | none
  let (t, rest) ← value (← skip? rest)
  some ((k, t), rest)

/-- A value that nests at most so deep. -/
def value : Nat → Reader Tree
  | 0, cs => plain cs
  | depth + 1, cs =>
    match cs with
    | '[' :: rest => do
      let add (items : List Tree) : Reader (List Tree) := fun cs => do
        let (t, rest) ← value depth cs
        some (items ++ [t], rest)
      let (items, rest) ← elementsWithin add ']' (rest.length + 1) [] rest
      some (.list items, rest)
    | '\x7b' :: rest => do
      let add (fields : Fields) : Reader Fields := fun cs => do
        let ((k, t), rest) ← assignment gap? (value depth) cs
        some (← fields.insert k t, rest)
      let (fields, rest) ← elementsWithin add '\x7d' (rest.length + 1) [] rest
      some (.table .inline fields, rest)
    | cs => plain cs
where
  /-- A value without parts. -/
  plain : Reader Tree := fun cs =>
    match cs with
    | '"' :: _ | '\'' :: _ => do
      let (letters, rest) ← string cs
      some (.scalar (.text (String.ofList letters)), rest)
    | cs => do
      let (s, rest) ← scalar cs
      some (.scalar s, rest)

/-- What has been read of a document: the root's fields and the header that keys belong to. -/
structure Progress where
  root : Fields
  header : List String

/-- One line that is not empty. -/
def line (p : Progress) : Reader Progress := fun cs =>
  match cs with
  | '[' :: '[' :: rest => do
    let (k, rest) ← key rest
    let ']' :: ']' :: rest := rest | none
    some (⟨← p.root.openRow k, k.parts⟩, rest)
  | '[' :: rest => do
    let (k, rest) ← key rest
    let ']' :: rest := rest | none
    some (⟨← p.root.openTable k, k.parts⟩, rest)
  | cs => do
    let ((k, t), rest) ← assignment (some ∘ skipBlank) (value nestingLimit) cs
    some ({ p with root := ← p.root.atHeader (·.insert k t) p.header }, rest)

/-- At most so many lines of a document. -/
def linesWithin : Nat → Progress → List Char → Option Progress
  | _, p, [] => some p
  | 0, _, _ :: _ => none
  | n + 1, p, cs =>
    match endLine? cs with
    | some rest => linesWithin n p rest
    | none => do
      let (p, rest) ← line p (skipBlank cs)
      linesWithin n p (← endLine? rest)

/-- The fields of the root table of a document. A byte order mark may come first. -/
def parse? (text : String) : Option Fields := do
  let cs := match text.toList with
    | '\uFEFF' :: rest => rest
    | cs => cs
  let p ← linesWithin cs.length ⟨[], []⟩ cs
  some p.root

end DiagnosticRelay.Toml
