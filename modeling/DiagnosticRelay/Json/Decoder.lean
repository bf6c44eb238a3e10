import DiagnosticRelay.Json.Skip

/-!
# Decoding typed values

A `Reader` for each kind of value that is asked for. A value of another kind is refused with what
was found; to say what it is, a plain value is read first, so a fault in its notation comes before
the wrong kind.

Records are described by a `Shape`: its fields in declared order, each with its key, how its value
is read and what it means to leave it out. A record may be written as an object, in which keys come
in any order, unknown keys are skipped and a known key may not come twice; or as a list of its
fields in declared order, of which those with a default may be left out at the end.
-/

namespace DiagnosticRelay.Json

/-- Refuses the value at the front of a text, which is not of the expected kind. -/
def refuse {α : Type} (expected : String) (cs : List Char) : Except Error α :=
  match skipBlank cs with
  | [] => .error .endInValue
  | 'n' :: rest => do
    let _ ← word ['u', 'l', 'l'] rest
    .error (.wrongKind .null expected)
  | 't' :: rest => do
    let _ ← word ['r', 'u', 'e'] rest
    .error (.wrongKind (.truth true) expected)
  | 'f' :: rest => do
    let _ ← word ['a', 'l', 's', 'e'] rest
    .error (.wrongKind (.truth false) expected)
  | '"' :: rest => do
    let (letters, _) ← string rest
    .error (.wrongKind (.text letters) expected)
  | '[' :: _ => .error (.wrongKind .list expected)
  | '\x7b' :: _ => .error (.wrongKind .record expected)
  | c :: rest =>
    if c = '-' ∨ c.isDigit then do
      let (n, _) ← number (c :: rest)
      .error (.wrongKind n.found expected)
    else .error .valueExpected

/-! ## Plain values -/

/-- A truth value. -/
def bool : Reader Bool := fun cs =>
  match skipBlank cs with
  | 't' :: rest => do .ok (true, ← word ['r', 'u', 'e'] rest)
  | 'f' :: rest => do .ok (false, ← word ['a', 'l', 's', 'e'] rest)
  | cs => refuse "a boolean" cs

/-- A string, under the name by which it is expected. -/
def textAs (expected : String) : Reader String := fun cs =>
  match skipBlank cs with
  | '"' :: rest => do
    let (letters, rest) ← string rest
    .ok (String.ofList letters, rest)
  | cs => refuse expected cs

/-- A whole number between two bounds, under the name by which it is expected. -/
def wholeWithin (low high : Int) (expected : String) : Reader Int := fun cs =>
  match skipBlank cs with
  | [] => .error .endInValue
  | c :: rest =>
    if c = '-' ∨ c.isDigit then do
      match ← number (c :: rest) with
      | (.whole n, rest) =>
        if low ≤ n ∧ n ≤ high then .ok (n, rest) else .error (.outOfRange (.whole n) expected)
      | (.real negative x, _) => .error (.wrongKind (.real negative x) expected)
    else refuse expected (c :: rest)

/-- An unsigned 8-bit word. -/
def uint8 : Reader UInt8 := fun cs => do
  let (n, rest) ← wholeWithin 0 0xFF "u8" cs
  .ok (UInt8.ofNat n.toNat, rest)

/-- An unsigned 32-bit word. -/
def uint32 : Reader UInt32 := fun cs => do
  let (n, rest) ← wholeWithin 0 0xFFFFFFFF "u32" cs
  .ok (UInt32.ofNat n.toNat, rest)

/-- An unsigned 64-bit word. -/
def uint64 : Reader UInt64 := fun cs => do
  let (n, rest) ← wholeWithin 0 0xFFFFFFFFFFFFFFFF "u64" cs
  .ok (UInt64.ofNat n.toNat, rest)

/-- A signed 64-bit word. -/
def int64 : Reader Int64 := fun cs => do
  let (n, rest) ← wholeWithin (-0x8000000000000000) 0x7FFFFFFFFFFFFFFF "i64" cs
  .ok (Int64.ofInt n, rest)

/-- A value or null. -/
def optional {α : Type} (r : Reader α) : Reader (Option α) := fun cs =>
  match skipBlank cs with
  | 'n' :: rest => do .ok (none, ← word ['u', 'l', 'l'] rest)
  | cs => do
    let (a, rest) ← r cs
    .ok (some a, rest)

/-! ## Lists -/

/-- Where the next item of a list starts, or `none` when the list ends here. -/
def nextItem (first : Bool) (cs : List Char) : Except Error (Option (List Char)) :=
  match skipBlank cs with
  | [] => .error .endInList
  | ']' :: _ => .ok none
  | c :: rest =>
    if first then .ok (some (c :: rest))
    else if c = ',' then
      match skipBlank rest with
      | [] => .error .endInValue
      | ']' :: _ => .error .trailingComma
      | rest => .ok (some rest)
    else .error .listEndExpected

/-- The text after the end of a list whose items have all been read. -/
def endList (cs : List Char) : Except Error (List Char) :=
  match skipBlank cs with
  | [] => .error .endInList
  | ']' :: rest => .ok rest
  | ',' :: rest =>
    match skipBlank rest with
    | ']' :: _ => .error .trailingComma
    | _ => .error .trailingCharacters
  | _ => .error .trailingCharacters

/-- At most so many items of a list. -/
def itemsWithin {α : Type} (r : Reader α) : Nat → Bool → Reader (List α)
  | 0, _, _ => .error .endInList
  | n + 1, first, cs => do
    match ← nextItem first cs with
    | none => .ok ([], cs)
    | some cs => do
      let (a, rest) ← r cs
      let (more, rest) ← itemsWithin r n false rest
      .ok (a :: more, rest)

def list {α : Type} (r : Reader α) : Reader (List α) := fun cs =>
  match skipBlank cs with
  | '[' :: rest => do
    let (items, rest) ← itemsWithin r (rest.length + 1) true rest
    .ok (items, ← endList rest)
  | cs => refuse "a sequence" cs

/-! ## Records -/

/-- A field of a record that is being read into `π`. -/
structure Field (π : Type) where
  /-- The key in front of the field in an object. -/
  key : String
  /-- Whether the field has been read. -/
  isRead : π → Bool
  /-- Reads the field's value. -/
  read : π → Reader π
  /-- Whether the field may be left out. -/
  hasDefault : Bool

/-- How a record is read: into `π` field by field, and then as `α`. -/
structure Shape (π α : Type) where
  /-- The name by which the record is expected. -/
  name : String
  /-- The fields in declared order. -/
  fields : List (Field π)
  /-- Nothing read yet. -/
  start : π
  /-- The record, with defaults for fields left out, unless one without a default is missing. -/
  finish : π → Except Error α

/-- The value of a field without a default. -/
def required {α : Type} (key : String) : Option α → Except Error α
  | some a => .ok a
  | none => .error (.missingField key)

namespace Shape

variable {π α : Type}

/-- Where the next key of an object starts, or `none` when the object ends here. -/
def nextKey (first : Bool) (cs : List Char) : Except Error (Option (List Char)) :=
  match skipBlank cs with
  | [] => .error .endInRecord
  | '\x7d' :: _ => .ok none
  | c :: rest =>
    if first then (if c = '"' then .ok (some rest) else .error .keyExpected)
    else if c = ',' then
      match skipBlank rest with
      | [] => .error .endInValue
      | '"' :: rest => .ok (some rest)
      | '\x7d' :: _ => .error .trailingComma
      | _ => .error .keyExpected
    else .error .recordEndExpected

/-- The text after the colon in front of a value. -/
def colon (cs : List Char) : Except Error (List Char) :=
  match skipBlank cs with
  | [] => .error .endInRecord
  | ':' :: rest => .ok rest
  | _ => .error .colonExpected

/-- The value of a key: read if the key is known and new, skipped if it is unknown. -/
def entry (s : Shape π α) (p : π) (key : List Char) (cs : List Char) :
    Except Error (π × List Char) :=
  match s.fields.find? fun f => f.key.toList = key with
  | some f =>
    if f.isRead p then .error (.duplicateField f.key) else do f.read p (← colon cs)
  | none => do .ok (p, ← skipValue (← colon cs))

/-- At most so many entries of an object. -/
def entriesWithin (s : Shape π α) : Nat → Bool → π → List Char → Except Error (π × List Char)
  | 0, _, _, _ => .error .endInRecord
  | n + 1, first, p, cs => do
    match ← nextKey first cs with
    | none => .ok (p, cs)
    | some cs => do
      let (key, rest) ← string cs
      let (p, rest) ← s.entry p key rest
      entriesWithin s n false p rest

/-- The text after the end of an object. -/
def endObject (cs : List Char) : Except Error (List Char) :=
  match skipBlank cs with
  | '\x7d' :: rest => .ok rest
  | _ => .error .endInRecord

/-- The fields of a record that is written as a list. -/
def positional (s : Shape π α) : List (Field π) → Nat → Bool → π → List Char →
    Except Error (π × List Char)
  | [], _, _, p, cs => .ok (p, cs)
  | f :: fs, index, first, p, cs => do
    match ← nextItem first cs with
    | some cs => do
      let (p, rest) ← f.read p cs
      positional s fs (index + 1) false p rest
    | none =>
      if f.hasDefault then positional s fs (index + 1) first p cs
      else .error (.wrongLength index s!"{s.name} with {s.fields.length} elements")

/-- A record. -/
def read (s : Shape π α) : Reader α := fun cs =>
  match skipBlank cs with
  | '\x7b' :: rest => do
    let (p, rest) ← s.entriesWithin (rest.length + 1) true s.start rest
    let a ← s.finish p
    .ok (a, ← endObject rest)
  | '[' :: rest => do
    let (p, rest) ← s.positional s.fields 0 true s.start rest
    let a ← s.finish p
    .ok (a, ← endList rest)
  | cs => refuse s.name cs

end Shape

/-! ## Whole texts -/

/-- The value of a text that holds nothing else. -/
def decode {α : Type} (r : Reader α) (text : String) : Except Error α := do
  let (a, rest) ← r text.toList
  match skipBlank rest with
  | [] => .ok a
  | _ => .error .trailingCharacters

end DiagnosticRelay.Json
