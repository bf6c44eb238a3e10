import DiagnosticRelay.Json.Error
import DiagnosticRelay.Text.Digit

/-!
# Blanks, words, strings and numbers

The pieces a JSON text is made of, each read from the front of the remaining characters. A reader
gives what it read and the characters after it, or the first problem it met.

Strings come in two forms. `string` gives the characters a string stands for and so has to join
surrogate pairs; `skipString` only finds the end of one and lets lone surrogates pass. Both want the
four digits of `\u` to be there in full: an escape that the text is too short for is a text that
ended inside a string. "Too short" counts the bytes of the remaining text, not its characters.

A number is whole when it has neither fraction nor exponent and fits a signed or unsigned 64-bit
word; all others, minus zero among them, are real. A real number keeps as many leading digits as fit
an unsigned 64-bit word and is then scaled by a power of ten, rounding at each operation.
-/

namespace DiagnosticRelay.Json

open DiagnosticRelay.Decimal DiagnosticRelay.Text

/-- A reader of `α` from the front of a text. -/
abbrev Reader (α : Type) := List Char → Except Error (α × List Char)

/-- Whether a character may stand between tokens. -/
def isBlank (c : Char) : Bool := c == ' ' || c == '\n' || c == '\t' || c == '\r'

/-- The text after its leading blanks. -/
def skipBlank : List Char → List Char
  | [] => []
  | c :: cs => if isBlank c then skipBlank cs else c :: cs

@[simp] theorem skipBlank_nil : skipBlank [] = [] := rfl

theorem skipBlank_of_not_isBlank {c : Char} (h : isBlank c = false) (cs : List Char) :
    skipBlank (c :: cs) = c :: cs := by
  simp [skipBlank, h]

/-- The text after the letters of a word. -/
def word : List Char → List Char → Except Error (List Char)
  | [], cs => .ok cs
  | _ :: _, [] => .error .endInValue
  | w :: ws, c :: cs => if c = w then word ws cs else .error .wordExpected

/-! ## Strings -/

/-- Whether a text has at least so many bytes. -/
def hasBytes : Nat → List Char → Bool
  | 0, _ => true
  | _ + 1, [] => false
  | n + 1, c :: cs => hasBytes (n + 1 - c.utf8Size) cs

/-- The number four hexadecimal digits stand for. -/
def hexQuad : Reader Nat := fun cs =>
  match cs with
  | a :: b :: c :: d :: rest =>
    match hexValue? a, hexValue? b, hexValue? c, hexValue? d with
    | some a, some b, some c, some d => .ok (((a * 16 + b) * 16 + c) * 16 + d, rest)
    | _, _, _, _ => .error .badEscape
  | _ => if hasBytes 4 cs then .error .badEscape else .error .endInString

/-- Whether a number is the first half of a surrogate pair. -/
def isLeading (n : Nat) : Bool := 0xD800 ≤ n && n ≤ 0xDBFF

/-- Whether a number is the second half of a surrogate pair. -/
def isTrailing (n : Nat) : Bool := 0xDC00 ≤ n && n ≤ 0xDFFF

/-- The second half of a surrogate pair, with its `\u`. -/
def secondHalf : Reader Nat := fun cs =>
  match cs with
  | [] => .error .endInString
  | '\\' :: [] => .error .endInString
  | '\\' :: 'u' :: rest => do
    let (n, rest) ← hexQuad rest
    if isTrailing n then .ok (n, rest) else .error .loneSurrogate
  | _ => .error .brokenSurrogatePair

/-- The character after `\u`. -/
def hexCharacter : Reader Char := fun cs => do
  let (n, rest) ← hexQuad cs
  if isTrailing n then .error .loneSurrogate
  else if isLeading n then do
    let (m, rest) ← secondHalf rest
    .ok (Char.ofNat (0x10000 + (n - 0xD800) * 0x400 + (m - 0xDC00)), rest)
  else .ok (Char.ofNat n, rest)

/-- The character a one-letter escape stands for. -/
def shortEscape? (c : Char) : Option Char :=
  if c = '"' then some '"'
  else if c = '\\' then some '\\'
  else if c = '/' then some '/'
  else if c = 'b' then some '\x08'
  else if c = 'f' then some '\x0c'
  else if c = 'n' then some '\n'
  else if c = 'r' then some '\r'
  else if c = 't' then some '\t'
  else none

/-- The next character of a string, or `none` at the closing quote. -/
def stringChar : Reader (Option Char) := fun cs =>
  match cs with
  | [] => .error .endInString
  | '"' :: rest => .ok (none, rest)
  | '\\' :: [] => .error .endInString
  | '\\' :: 'u' :: rest => do
    let (c, rest) ← hexCharacter rest
    .ok (some c, rest)
  | '\\' :: e :: rest =>
    match shortEscape? e with
    | some c => .ok (some c, rest)
    | none => .error .badEscape
  | c :: rest => if c.toNat < 0x20 then .error .controlCharacter else .ok (some c, rest)

/-- At most so many characters of a string, up to its closing quote. -/
def stringWithin : Nat → Reader (List Char)
  | 0, _ => .error .endInString
  | n + 1, cs => do
    match ← stringChar cs with
    | (none, rest) => .ok ([], rest)
    | (some c, rest) => do
      let (more, rest) ← stringWithin n rest
      .ok (c :: more, rest)

/-- The characters of a string whose opening quote has been read. Every one of them takes at least
one character of the text, so the text's length bounds their number. -/
def string : Reader (List Char) := fun cs => stringWithin (cs.length + 1) cs

/-- The text after a string whose opening quote has been read, of at most so many characters. -/
def skipStringWithin : Nat → List Char → Except Error (List Char)
  | 0, _ => .error .endInString
  | n + 1, cs =>
    match cs with
    | [] => .error .endInString
    | '"' :: rest => .ok rest
    | '\\' :: [] => .error .endInString
    | '\\' :: 'u' :: rest => do
      let (_, rest) ← hexQuad rest
      skipStringWithin n rest
    | '\\' :: e :: rest =>
      if (shortEscape? e).isSome then skipStringWithin n rest else .error .badEscape
    | c :: rest => if c.toNat < 0x20 then .error .controlCharacter else skipStringWithin n rest

/-- The text after a string whose opening quote has been read. -/
def skipString (cs : List Char) : Except Error (List Char) := skipStringWithin (cs.length + 1) cs

/-! ## Numbers -/

/-- A number as a reader sees it. -/
inductive Number where
  | whole (n : Int)
  | real (negative : Bool) (magnitude : Binary64)
  deriving DecidableEq, Repr

/-- The wording of a number. -/
def Number.found : Number → Found
  | .whole n => .whole n
  | .real negative magnitude => .real negative magnitude

/-- The leading digits of a text and what follows them. -/
def digits (cs : List Char) : List Char × List Char :=
  (cs.takeWhile Char.isDigit, cs.dropWhile Char.isDigit)

/-- The largest unsigned 64-bit word. -/
def wordMax : Nat := UInt64.size - 1

/-- Appends digits to a number while it fits a word. Gives the number and how many digits it took.
-/
def absorb : Nat → List Char → Nat × Nat
  | n, [] => (n, 0)
  | n, d :: ds =>
    if n * 10 + digitValue d ≤ wordMax then
      let (m, taken) := absorb (n * 10 + digitValue d) ds
      (m, taken + 1)
    else (n, 0)

/-- A word times a power of ten. Powers beyond the format's range are applied in two steps. -/
def scale? (significand : Nat) (power : Int) : Option Binary64 :=
  let powerOfTen (k : Nat) : Option Binary64 := Binary64.ofNat? (tenTo k)
  do
    let x ← Binary64.ofNat? significand
    if power > 308 then
      if x.mantissa = 0 then some x else none
    else if power ≥ 0 then x.mul? (← powerOfTen power.toNat)
    else if power ≥ -308 then x.div? (← powerOfTen (-power).toNat)
    else
      let y ← x.div? (← powerOfTen 308)
      if power ≥ -616 then y.div? (← powerOfTen (-power - 308).toNat) else some Binary64.zero

/-- The real number with a significand and a power of ten. -/
def realNumber (negative : Bool) (significand : Nat) (power : Int) : Except Error Number :=
  match scale? significand power with
  | some x => .ok (.real negative x)
  | none => .error .numberTooLarge

/-- The largest exponent that is kept as a number. -/
def exponentMax : Nat := 0x7FFFFFFF

/-- The sign in front of an exponent. -/
def exponentSign : List Char → Bool × List Char
  | '+' :: rest => (false, rest)
  | '-' :: rest => (true, rest)
  | cs => (false, cs)

/-- The rest of a number after the `e` of its exponent. -/
def exponent (negative : Bool) (significand : Nat) (power : Int) : Reader Number := fun cs =>
  let (down, cs) := exponentSign cs
  match digits cs with
  | ([], []) => .error .endInValue
  | ([], _ :: _) => .error .badNumber
  | (ds, rest) =>
    let n := naturalOf ds
    if n > exponentMax then
      if significand ≠ 0 ∧ ¬ down then .error .numberTooLarge
      else .ok (.real negative Binary64.zero, rest)
    else do
      let x ← realNumber negative significand (if down then power - n else power + n)
      .ok (x, rest)

/-- The rest of a number after its point. -/
def fraction (negative : Bool) (significand : Nat) (power : Int) : Reader Number := fun cs =>
  match digits cs with
  | ([], []) => .error .endInValue
  | ([], _ :: _) => .error .badNumber
  | (ds, rest) =>
    let (m, taken) := absorb significand ds
    match rest with
    | 'e' :: rest => exponent negative m (power - taken) rest
    | 'E' :: rest => exponent negative m (power - taken) rest
    | rest => do
      let x ← realNumber negative m (power - taken)
      .ok (x, rest)

/-- The whole number of a sign and digits, when it fits a word of that sign. -/
def wholeNumber? (negative : Bool) (n : Nat) : Option Int :=
  if negative then (if n = 0 ∨ 0x8000000000000000 < n then none else some (-(n : Int)))
  else if n ≤ wordMax then some (n : Int) else none

/-- A number after its sign. -/
def magnitude (negative : Bool) : Reader Number := fun cs =>
  match digits cs with
  | ([], []) => .error .endInValue
  | ([], _ :: _) => .error .badNumber
  | ('0' :: _ :: _, _) => .error .badNumber
  | (ds, rest) =>
    let (m, taken) := absorb 0 ds
    let power : Int := (ds.length - taken : Nat)
    match rest with
    | '.' :: rest => fraction negative m power rest
    | 'e' :: rest => exponent negative m power rest
    | 'E' :: rest => exponent negative m power rest
    | rest =>
      match wholeNumber? negative (naturalOf ds) with
      | some n => .ok (.whole n, rest)
      | none => do
        let x ← realNumber negative m power
        .ok (x, rest)

def number : Reader Number := fun cs =>
  match cs with
  | '-' :: rest => magnitude true rest
  | cs => magnitude false cs

/-- The text after the digits of an exponent. -/
def skipExponent (cs : List Char) : Except Error (List Char) :=
  match digits (exponentSign cs).2 with
  | ([], _) => .error .badNumber
  | (_, rest) => .ok rest

/-- The text after an exponent, if there is one. -/
def skipScale : List Char → Except Error (List Char)
  | 'e' :: rest => skipExponent rest
  | 'E' :: rest => skipExponent rest
  | rest => .ok rest

/-- The text after a minus sign, if there is one. -/
def skipMinus : List Char → List Char
  | '-' :: rest => rest
  | cs => cs

/-- The text after a number, of which only the notation is looked at. -/
def skipNumber (cs : List Char) : Except Error (List Char) :=
  match digits (skipMinus cs) with
  | ([], _) => .error .badNumber
  | ('0' :: _ :: _, _) => .error .badNumber
  | (_, '.' :: rest) =>
    match digits rest with
    | ([], _) => .error .badNumber
    | (_, rest) => skipScale rest
  | (_, rest) => skipScale rest

end DiagnosticRelay.Json
