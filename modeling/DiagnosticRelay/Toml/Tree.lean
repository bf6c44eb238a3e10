import DiagnosticRelay.Toml.Scalar

/-!
# Trees of TOML tables

A TOML text describes a tree of tables. A table may be opened by a header, come into being because a
header names one inside it, come into being through a key with dots, or be written inline; which of
these it was decides what may still be added to it:

* a header may open a table that so far was only implied by other headers, once;
* a key with dots may go through tables made by such keys or implied by headers; an implied one then
  counts as made by such keys;
* an inline table is complete.

A header in double brackets adds a row to a list of tables, and later keys and headers that name the
list mean its last row; a key may go through such a row, but not put its value right into it. No key
is given two values.
-/

namespace DiagnosticRelay.Toml

/-- How a table came into being. -/
inductive Origin where
  | header
  | implied
  | dotted
  | inline
  deriving DecidableEq, Repr

inductive Tree where
  | scalar (s : Scalar)
  | list (items : List Tree)
  | table (origin : Origin) (fields : List (String × Tree))
  /-- The rows of a list of tables, the last one first. -/
  | rows (last : List (String × Tree)) (earlier : List (List (String × Tree)))

abbrev Fields := List (String × Tree)

namespace Fields

def get? (fs : Fields) (name : String) : Option Tree := fs.lookup name

/-- The fields with another value for one that is there already, or with a new one at the end. -/
def set : Fields → String → Tree → Fields
  | [], name, t => [(name, t)]
  | (n, u) :: fs, name, t => if n = name then (n, t) :: fs else (n, u) :: set fs name t

/-- Changes the table that a header names by its path, of which missing tables are implied. -/
def atHeader (change : Fields → Option Fields) : List String → Fields → Option Fields
  | [], fs => change fs
  | name :: path, fs =>
    match fs.get? name with
    | none => do some (fs.set name (.table .implied (← atHeader change path [])))
    | some (.table .inline _) => none
    | some (.table origin inner) => do
      some (fs.set name (.table origin (← atHeader change path inner)))
    | some (.rows last earlier) => do
      some (fs.set name (.rows (← atHeader change path last) earlier))
    | some _ => none

/-- Opens a table by its header. -/
def openTable (key : Key) (fs : Fields) : Option Fields :=
  fs.atHeader (fun outer =>
    match outer.get? key.last with
    | none => some (outer.set key.last (.table .header []))
    | some (.table .implied inner) => some (outer.set key.last (.table .header inner))
    | some _ => none) key.outer

/-- Opens a new row of a list of tables by its header. -/
def openRow (key : Key) (fs : Fields) : Option Fields :=
  fs.atHeader (fun outer =>
    match outer.get? key.last with
    | none => some (outer.set key.last (.rows [] []))
    | some (.rows last earlier) => some (outer.set key.last (.rows [] (last :: earlier)))
    | some _ => none) key.outer

/-- Gives a field that is not there yet its value. -/
def insertNew (fs : Fields) (name : String) (t : Tree) : Option Fields :=
  match fs.get? name with
  | none => some (fs.set name t)
  | some _ => none

/-- Gives a key with the parts `path` in front of its last one its value. -/
def insertAt : List String → String → Tree → Fields → Option Fields
  | [], last, t, fs => fs.insertNew last t
  | name :: path, last, t, fs =>
    match fs.get? name with
    | none => do some (fs.set name (.table .dotted (← insertAt path last t [])))
    | some (.table .dotted inner) | some (.table .implied inner) => do
      some (fs.set name (.table .dotted (← insertAt path last t inner)))
    | some (.rows row earlier) =>
      if path.isEmpty then none
      else do some (fs.set name (.rows (← insertAt path last t row) earlier))
    | some _ => none

/-- Gives a key its value. -/
def insert (fs : Fields) (key : Key) (t : Tree) : Option Fields := insertAt key.outer key.last t fs

end Fields

/-- The largest whole number that can be read, of 128 bits without a sign. -/
def wholeMax : Int := 0xFFFFFFFFFFFFFFFFFFFFFFFFFFFFFFFF

/-- The smallest whole number that can be read, of 128 bits with a sign. -/
def wholeMin : Int := -0x80000000000000000000000000000000

/-- Whether a value can be read: a number is one, and within range. -/
def Scalar.isReadable : Scalar → Bool
  | .whole none => false
  | .whole (some n) => wholeMin ≤ n && n ≤ wholeMax
  | .real isTooLarge => ! isTooLarge
  | .text _ | .truth _ | .moment => true

mutual

/-- Whether all numbers of a tree are within the range of what can be read. -/
def Tree.isReadable : Tree → Bool
  | .scalar s => s.isReadable
  | .list items => listIsReadable items
  | .table _ fields => fieldsAreReadable fields
  | .rows last earlier => fieldsAreReadable last && rowsAreReadable earlier

/-- Whether all numbers of the items are within range. -/
def listIsReadable : List Tree → Bool
  | [] => true
  | t :: ts => t.isReadable && listIsReadable ts

/-- Whether all numbers of the fields are within range. -/
def fieldsAreReadable : List (String × Tree) → Bool
  | [] => true
  | (_, t) :: fs => t.isReadable && fieldsAreReadable fs

/-- Whether all numbers of the rows are within range. -/
def rowsAreReadable : List (List (String × Tree)) → Bool
  | [] => true
  | fs :: rows => fieldsAreReadable fs && rowsAreReadable rows

end

end DiagnosticRelay.Toml
