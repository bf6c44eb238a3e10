import DiagnosticRelay.Text.Digit

/-!
# Blanks, comments, strings and keys of TOML

The pieces of a TOML text below the level of values. A reader gives what it read and the characters
after it, or nothing when the text does not follow the notation; a refused text is refused as a
whole, so no reason is kept.

Lines end with a line feed, which a carriage return may precede; a carriage return anywhere else is
refused, as are the other control characters except the tab.
-/

namespace DiagnosticRelay.Toml

/-- A reader of `α` from the front of a text. -/
abbrev Reader (α : Type) := List Char → Option (α × List Char)

/-- Whether a character is a blank within a line. -/
def isBlank (c : Char) : Bool := c == ' ' || c == '\t'

/-- Whether a character may stand in a comment or a string as it is. -/
def isPlain (c : Char) : Bool := c == '\t' || (c.toNat ≥ 0x20 && c.toNat ≠ 0x7F)

/-- The text after its leading blanks. -/
def skipBlank (cs : List Char) : List Char := cs.dropWhile isBlank

/-- The text after a line feed, with or without a carriage return. -/
def newline? : List Char → Option (List Char)
  | '\n' :: rest => some rest
  | '\r' :: '\n' :: rest => some rest
  | _ => none

/-- The text after the rest of a line, which holds at most a comment. -/
def endLine? (cs : List Char) : Option (List Char) :=
  let cs := match skipBlank cs with
    | '#' :: rest => rest.dropWhile isPlain
    | cs => cs
  match cs with
  | [] => some []
  | cs => newline? cs

/-- The text after blanks, line ends and comments; the flag says whether a comment is being read. -/
def skipGap : Bool → List Char → Option (List Char)
  | _, [] => some []
  | _, '\n' :: rest => skipGap false rest
  | _, '\r' :: '\n' :: rest => skipGap false rest
  | true, c :: rest => if isPlain c then skipGap true rest else none
  | false, c :: rest =>
    if isBlank c then skipGap false rest
    else if c = '#' then skipGap true rest
    else if c = '\r' then none
    else some (c :: rest)

/-- The text after blanks, line ends and comments. -/
def gap? (cs : List Char) : Option (List Char) := skipGap false cs

/-! ## Strings -/

/-- The number that so many hexadecimal digits continue. -/
def hexNumber : Nat → Nat → Reader Nat
  | 0, n, cs => some (n, cs)
  | _ + 1, _, [] => none
  | k + 1, n, c :: cs => do hexNumber k (n * 16 + (← Text.hexValue? c)) cs

/-- The character with a code point of so many hexadecimal digits. -/
def hexCharacter (k : Nat) : Reader Char := fun cs => do
  let (n, rest) ← hexNumber k 0 cs
  if n.isValidChar then some (Char.ofNat n, rest) else none

/-- The character after a backslash. -/
def escaped : Reader Char
  | 'b' :: rest => some ('\x08', rest)
  | 't' :: rest => some ('\t', rest)
  | 'n' :: rest => some ('\n', rest)
  | 'f' :: rest => some ('\x0c', rest)
  | 'r' :: rest => some ('\r', rest)
  | 'e' :: rest => some ('\x1b', rest)
  | '"' :: rest => some ('"', rest)
  | '\\' :: rest => some ('\\', rest)
  | 'x' :: rest => hexCharacter 2 rest
  | 'u' :: rest => hexCharacter 4 rest
  | 'U' :: rest => hexCharacter 8 rest
  | _ => none

/-- The rest of a string on one line between double quotes, of at most so many characters. -/
def basicWithin : Nat → Reader (List Char)
  | 0, _ => none
  | n + 1, cs =>
    match cs with
    | [] => none
    | '"' :: rest => some ([], rest)
    | '\\' :: rest => do
      let (c, rest) ← escaped rest
      let (more, rest) ← basicWithin n rest
      some (c :: more, rest)
    | c :: rest =>
      if isPlain c then do
        let (more, rest) ← basicWithin n rest
        some (c :: more, rest)
      else none

/-- The rest of a string on one line between single quotes. -/
def literal : Reader (List Char)
  | [] => none
  | c :: rest =>
    if c = '\'' then some ([], rest)
    else if isPlain c then do
      let (more, rest) ← literal rest
      some (c :: more, rest)
    else none

/-- The number of copies of a character at the front of a text, up to five. -/
def copiesOf (q : Char) (cs : List Char) : Nat := ((cs.take 5).takeWhile (· == q)).length

/-- The text after a backslash that ends a line, and all blanks and line ends after it. -/
def continuation? (cs : List Char) : Option (List Char) := do
  let rest ← newline? (skipBlank cs)
  some (skipLines rest)
where
  /-- The text after blanks and line ends. -/
  skipLines : List Char → List Char
    | [] => []
    | '\n' :: rest => skipLines rest
    | '\r' :: '\n' :: rest => skipLines rest
    | c :: rest => if isBlank c then skipLines rest else c :: rest

/-- The rest of a string over several lines, of at most so many characters. Three quotes end it, and
up to two more before them are its last characters. Escapes are read only when asked for. -/
def manyLinesWithin (quote : Char) (escapes : Bool) : Nat → Reader (List Char)
  | 0, _ => none
  | n + 1, cs =>
    match cs with
    | [] => none
    | c :: rest =>
      if c = quote then
        let run := copiesOf quote cs
        if run < 3 then do
          let (more, rest) ← manyLinesWithin quote escapes n rest
          some (c :: more, rest)
        else some (List.replicate (run - 3) quote, cs.drop run)
      else if c = '\\' ∧ escapes then
        match continuation? rest with
        | some rest => manyLinesWithin quote escapes n rest
        | none => do
          let (c, rest) ← escaped rest
          let (more, rest) ← manyLinesWithin quote escapes n rest
          some (c :: more, rest)
      else if isPlain c ∨ c = '\n' ∨ (c = '\r' ∧ rest.head? = some '\n') then do
        let (more, rest) ← manyLinesWithin quote escapes n rest
        some (c :: more, rest)
      else none

/-- The rest of a string over several lines. A line end right after the opening quotes is not part
of it. -/
def manyLines (quote : Char) (escapes : Bool) : Reader (List Char) := fun cs =>
  let cs := (newline? cs).getD cs
  manyLinesWithin quote escapes (cs.length + 1) cs

/-- A string value in any of the four notations. -/
def string : Reader (List Char)
  | '"' :: '"' :: '"' :: rest => manyLines '"' true rest
  | '\'' :: '\'' :: '\'' :: rest => manyLines '\'' false rest
  | '"' :: rest => basicWithin (rest.length + 1) rest
  | '\'' :: rest => literal rest
  | _ => none

/-! ## Keys -/

/-- Whether a character may stand in a key without quotes. -/
def isBare (c : Char) : Bool := c.isAlphanum || c == '_' || c == '-'

def keyPart : Reader (List Char)
  | '"' :: rest => basicWithin (rest.length + 1) rest
  | '\'' :: rest => literal rest
  | cs =>
    match cs.takeWhile isBare with
    | [] => none
    | letters => some (letters, cs.dropWhile isBare)

/-- How many parts a key may have. -/
def partLimit : Nat := 80

/-- The parts of a key after the first, of at most so many. -/
def keyPartsWithin : Nat → Reader (List String)
  | 0, cs => some ([], cs)
  | n + 1, cs =>
    match skipBlank cs with
    | '.' :: rest => do
      let (part, rest) ← keyPart (skipBlank rest)
      let (parts, rest) ← keyPartsWithin n rest
      some (String.ofList part :: parts, rest)
    | cs => some ([], cs)

/-- A key: the parts in front of the last, and the last. -/
structure Key where
  outer : List String
  last : String
  deriving DecidableEq, Repr

/-- The key with a first part and others after it. -/
def Key.ofParts (first : String) : List String → Key
  | [] => ⟨[], first⟩
  | p :: ps =>
    let k := ofParts p ps
    ⟨first :: k.outer, k.last⟩

def Key.parts (k : Key) : List String := k.outer ++ [k.last]

/-- A key and the blanks around it. -/
def key : Reader Key := fun cs => do
  let (first, rest) ← keyPart (skipBlank cs)
  let (parts, rest) ← keyPartsWithin (partLimit - 1) rest
  some (.ofParts (String.ofList first) parts, skipBlank rest)

end DiagnosticRelay.Toml
