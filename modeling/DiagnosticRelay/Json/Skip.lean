import DiagnosticRelay.Json.Scan

/-!
# Skipping a value

A field nobody asked for may hold any value. `skipValue` finds the end of one and checks only its
notation. The lists and records it is inside of are kept on an explicit stack, innermost first, so
depth is no limit: after each complete value `leave` closes as many of them as end there and says
whether the outermost value is complete or where the next value starts.
-/

namespace DiagnosticRelay.Json

inductive Enclosure where
  | list
  | record
  deriving DecidableEq, Repr

namespace Enclosure

def closer : Enclosure → Char
  | .list => ']'
  | .record => '\x7d'

/-- The problem of a text that ends inside the enclosure. -/
def ended : Enclosure → Error
  | .list => .endInList
  | .record => .endInRecord

/-- The problem of a value that neither a comma nor the end follows. -/
def unclosed : Enclosure → Error
  | .list => .listEndExpected
  | .record => .recordEndExpected

end Enclosure

/-- The text after the key and colon in front of a value, of which a list has none. -/
def skipKey : Enclosure → List Char → Except Error (List Char)
  | .list, cs => .ok cs
  | .record, cs =>
    match skipBlank cs with
    | [] => .error .endInRecord
    | '"' :: rest => do
      match skipBlank (← skipString rest) with
      | [] => .error .endInRecord
      | ':' :: rest => .ok rest
      | _ => .error .colonExpected
    | _ => .error .keyExpected

/-- Closes the enclosures that end after a complete value. Gives the enclosures left open and the
text after the comma; none left means that the outermost value is complete. -/
def leave : List Enclosure → List Char → Except Error (List Enclosure × List Char)
  | [], cs => .ok ([], cs)
  | e :: outer, cs =>
    match skipBlank cs with
    | [] => .error e.ended
    | c :: rest =>
      if c = ',' then .ok (e :: outer, rest)
      else if c = e.closer then leave outer rest
      else .error e.unclosed

/-- Enters a list or record. An empty one is a complete value at once. -/
def enter (e : Enclosure) (outer : List Enclosure) (cs : List Char) :
    Except Error (List Enclosure × List Char) :=
  match skipBlank cs with
  | [] => .error e.ended
  | c :: rest => if c = e.closer then leave outer rest else .ok (e :: outer, c :: rest)

/-- The front of a value: all of a plain one, the opening character of a list or record. -/
def skipFront (outer : List Enclosure) (cs : List Char) :
    Except Error (List Enclosure × List Char) :=
  match skipBlank cs with
  | [] => .error .endInValue
  | 'n' :: rest => do leave outer (← word ['u', 'l', 'l'] rest)
  | 't' :: rest => do leave outer (← word ['r', 'u', 'e'] rest)
  | 'f' :: rest => do leave outer (← word ['a', 'l', 's', 'e'] rest)
  | '"' :: rest => do leave outer (← skipString rest)
  | '[' :: rest => enter .list outer rest
  | '\x7b' :: rest => enter .record outer rest
  | c :: rest =>
    if c = '-' ∨ c.isDigit then do leave outer (← skipNumber (c :: rest))
    else .error .valueExpected

/-- The text after the values still to be read in the open enclosures, of at most so many values. -/
def skipWithin : Nat → List Enclosure → List Char → Except Error (List Char)
  | _, [], cs => .ok cs
  | 0, _ :: _, _ => .error .endInValue
  | n + 1, e :: outer, cs => do
    let (open', rest) ← skipFront (e :: outer) (← skipKey e cs)
    skipWithin n open' rest

/-- The text after a value. Every value takes at least one character, so the text's length bounds
their number. -/
def skipValue (cs : List Char) : Except Error (List Char) := do
  let (open', rest) ← skipFront [] cs
  skipWithin cs.length open' rest

end DiagnosticRelay.Json
