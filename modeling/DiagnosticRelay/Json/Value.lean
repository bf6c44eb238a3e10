/-!
# JSON values and how they are written

The values that published messages are written as, and their compact text: no blanks, the fields of
a record in their given order, and strings with the short escapes for quote, backslash, backspace,
form feed, line feed, carriage return and tab, `\u00xx` for the other control characters below a
blank, and every other character as it is.

Numbers are natural, since only rows and columns are written.
-/

namespace DiagnosticRelay.Json

/-- A JSON value without truth values, nulls and fractions. -/
inductive Value where
  | text (s : String)
  | number (n : Nat)
  | list (items : List Value)
  | record (fields : List (String × Value))

/-- The two lower-case hexadecimal digits of a number below 256. -/
def hexPair (n : Nat) : List Char := [Nat.digitChar (n / 16), Nat.digitChar (n % 16)]

/-- A character inside the quotes of a string. -/
def escape (c : Char) : List Char :=
  if c = '"' then ['\\', '"']
  else if c = '\\' then ['\\', '\\']
  else if c = '\x08' then ['\\', 'b']
  else if c = '\x0c' then ['\\', 'f']
  else if c = '\n' then ['\\', 'n']
  else if c = '\r' then ['\\', 'r']
  else if c = '\t' then ['\\', 't']
  else if c.toNat < 0x20 then ['\\', 'u', '0', '0'] ++ hexPair c.toNat
  else [c]

/-- A string between its quotes. -/
def quote (cs : List Char) : List Char := '"' :: (cs.flatMap escape ++ ['"'])

mutual

/-- The compact text of a value. -/
def Value.render : Value → List Char
  | .text s => quote s.toList
  | .number n => Nat.toDigits 10 n
  | .list [] => ['[', ']']
  | .list (v :: vs) => '[' :: (v.render ++ renderItems vs)
  | .record [] => ['\x7b', '\x7d']
  | .record ((k, v) :: fields) =>
    '\x7b' :: (quote k.toList ++ ':' :: (v.render ++ renderFields fields))

/-- The items after the first, up to the closing bracket. -/
def renderItems : List Value → List Char
  | [] => [']']
  | v :: vs => ',' :: (v.render ++ renderItems vs)

/-- The fields after the first, up to the closing brace. -/
def renderFields : List (String × Value) → List Char
  | [] => ['\x7d']
  | (k, v) :: fields => ',' :: (quote k.toList ++ ':' :: (v.render ++ renderFields fields))

end

def Value.compact (v : Value) : String := String.ofList v.render

end DiagnosticRelay.Json
