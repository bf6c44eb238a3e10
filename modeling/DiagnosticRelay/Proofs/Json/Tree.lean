import DiagnosticRelay.Json.Scan

/-!
# What JSON texts say

The grammar of JSON, said without a reader. A `Tree` is what a text says: of a number only whether
it is a plain whole one and which, of a string the letters it stands for. `Tree.Written` relates a
tree to all its texts, with any blanks in front of every token and any spelling of every string.

Escapes of a string may be well formed and yet stand for no letters, when half of a surrogate pair
is missing. Such a string is `Tree.text none`; it is JSON all the same, and so is a record with such
a key.
-/

namespace DiagnosticRelay.Json

open DiagnosticRelay.Text

/-- What a JSON text says. -/
inductive Tree where
  | null
  | truth (b : Bool)
  /-- A number in plain decimal digits, with a minus sign if it is negative. -/
  | whole (n : Int)
  /-- Any other number: one with a fraction or an exponent, or minus zero. -/
  | real
  | text (letters : Option (List Char))
  | list (items : List Tree)
  | record (entries : List (Option (List Char) × Tree))

/-- Induction over a tree, with the hypothesis for every item and every entry. -/
@[elab_as_elim]
theorem Tree.induction {P : Tree → Prop} (null : P .null) (truth : ∀ b, P (.truth b))
    (whole : ∀ n, P (.whole n)) (real : P .real) (text : ∀ letters, P (.text letters))
    (list : ∀ items, (∀ t ∈ items, P t) → P (.list items))
    (record : ∀ entries, (∀ e ∈ entries, P e.2) → P (.record entries)) : ∀ t, P t
  | .null => null
  | .truth b => truth b
  | .whole n => whole n
  | .real => real
  | .text letters => text letters
  | .list items =>
    list items fun t _ => Tree.induction null truth whole real text list record t
  | .record entries =>
    record entries fun e he => by
      have hsize := List.sizeOf_lt_of_mem he
      have hvalue : sizeOf e = 1 + sizeOf e.1 + sizeOf e.2 := rfl
      exact Tree.induction null truth whole real text list record e.2
termination_by t => sizeOf t

/-! ## Blanks -/

/-- Characters that may stand between tokens. -/
def Blank (cs : List Char) : Prop := ∀ c ∈ cs, c = ' ' ∨ c = '\t' ∨ c = '\n' ∨ c = '\r'

/-- A token with any blanks in front. -/
def Token (token cs : List Char) : Prop := ∃ blank, Blank blank ∧ cs = blank ++ token

/-! ## Strings -/

/-- The escapes of one letter, with the characters they stand for. -/
def shortEscapes : List (Char × Char) :=
  [('"', '"'), ('\\', '\\'), ('/', '/'), ('b', '\x08'), ('f', '\x0c'), ('n', '\n'), ('r', '\r'),
    ('t', '\t')]

/-- The number that four hexadecimal digits stand for. -/
def Quad (a b c d : Char) (n : Nat) : Prop :=
  ∃ w x y z, hexValue? a = some w ∧ hexValue? b = some x ∧ hexValue? c = some y ∧
    hexValue? d = some z ∧ n = ((w * 16 + x) * 16 + y) * 16 + z

/-- Whether a character may stand for itself between quotes. -/
def Plain (c : Char) : Prop := 0x20 ≤ c.toNat ∧ c ≠ '"' ∧ c ≠ '\\'

/-- Between quotes, `body` stands for `letters`. -/
inductive Spells : List Char → List Char → Prop where
  | nil : Spells [] []
  | plain {c : Char} {body letters : List Char} (hc : Plain c) (h : Spells body letters) :
      Spells (c :: body) (c :: letters)
  | short {e c : Char} {body letters : List Char} (he : (e, c) ∈ shortEscapes)
      (h : Spells body letters) : Spells ('\\' :: e :: body) (c :: letters)
  /-- A character by its code. -/
  | code {a b c d : Char} {n : Nat} {body letters : List Char} (hn : Quad a b c d n)
      (hleading : isLeading n = false) (htrailing : isTrailing n = false)
      (h : Spells body letters) :
      Spells ('\\' :: 'u' :: a :: b :: c :: d :: body) (Char.ofNat n :: letters)
  /-- A character beyond the first 65536, by the two halves of a surrogate pair. -/
  | pair {a b c d a' b' c' d' : Char} {n m : Nat} {body letters : List Char}
      (hn : Quad a b c d n) (hleading : isLeading n = true) (hm : Quad a' b' c' d' m)
      (htrailing : isTrailing m = true) (h : Spells body letters) :
      Spells
        ('\\' :: 'u' :: a :: b :: c :: d :: '\\' :: 'u' :: a' :: b' :: c' :: d' :: body)
        (Char.ofNat (0x10000 + (n - 0xD800) * 0x400 + (m - 0xDC00)) :: letters)

/-- What may stand between quotes. -/
inductive Body : List Char → Prop where
  | nil : Body []
  | plain {c : Char} {body : List Char} (hc : Plain c) (h : Body body) : Body (c :: body)
  | short {e c : Char} {body : List Char} (he : (e, c) ∈ shortEscapes) (h : Body body) :
      Body ('\\' :: e :: body)
  | code {a b c d : Char} {n : Nat} {body : List Char} (hn : Quad a b c d n) (h : Body body) :
      Body ('\\' :: 'u' :: a :: b :: c :: d :: body)

/-- A string between its quotes. -/
def Quoted (letters : Option (List Char)) (cs : List Char) : Prop :=
  ∃ body, cs = '"' :: (body ++ ['"']) ∧
    match letters with
    | some letters => Spells body letters
    | none => Body body ∧ ∀ letters, ¬ Spells body letters

/-! ## Numbers -/

/-- A whole number in plain decimal digits. -/
def decimal (n : Int) : List Char :=
  if n < 0 then '-' :: Nat.toDigits 10 n.natAbs else Nat.toDigits 10 n.natAbs

/-- One or more digits. -/
def Digits (ds : List Char) : Prop := ds ≠ [] ∧ ∀ d ∈ ds, d.isDigit = true

/-- The digits in front of a point: no zero leads others. -/
def Natural (ds : List Char) : Prop := Digits ds ∧ ∀ d ds', ds ≠ '0' :: d :: ds'

/-- The exponent of a number, if it has one. -/
def Exponent (cs : List Char) : Prop :=
  cs = [] ∨ ∃ e sign ds, (e = 'e' ∨ e = 'E') ∧ (sign = [] ∨ sign = ['+'] ∨ sign = ['-']) ∧
    Digits ds ∧ cs = e :: (sign ++ ds)

/-- The fraction of a number, if it has one. -/
def Fraction (cs : List Char) : Prop := cs = [] ∨ ∃ ds, Digits ds ∧ cs = '.' :: ds

/-- A number in any notation. -/
def Numeral (cs : List Char) : Prop :=
  ∃ sign ds fraction exponent, (sign = [] ∨ sign = ['-']) ∧ Natural ds ∧ Fraction fraction ∧
    Exponent exponent ∧ cs = sign ++ (ds ++ (fraction ++ exponent))

/-! ## Texts -/

/-- The key of an entry with its colon. -/
def KeyWritten (key : Option (List Char)) (cs : List Char) : Prop :=
  ∃ quoted front colon, Quoted key quoted ∧ Token quoted front ∧ Token [':'] colon ∧
    cs = front ++ colon

mutual

/-- The texts that say what a tree says, from the blanks in front of it to its last character. -/
def Tree.Written : Tree → List Char → Prop
  | .null, cs => Token ['n', 'u', 'l', 'l'] cs
  | .truth true, cs => Token ['t', 'r', 'u', 'e'] cs
  | .truth false, cs => Token ['f', 'a', 'l', 's', 'e'] cs
  | .whole n, cs => Token (decimal n) cs
  | .real, cs => ∃ numeral, Numeral numeral ∧ (∀ n, numeral ≠ decimal n) ∧ Token numeral cs
  | .text letters, cs => ∃ quoted, Quoted letters quoted ∧ Token quoted cs
  | .list items, cs => ∃ inside, ItemsWritten items inside ∧ Token ('[' :: inside) cs
  | .record entries, cs => ∃ inside, EntriesWritten entries inside ∧ Token ('\x7b' :: inside) cs

/-- The texts of a list's items, up to the closing bracket. -/
def ItemsWritten : List Tree → List Char → Prop
  | [], cs => Token [']'] cs
  | t :: ts, cs => ∃ item rest, t.Written item ∧ MoreItemsWritten ts rest ∧ cs = item ++ rest

/-- The texts of the items after the first. -/
def MoreItemsWritten : List Tree → List Char → Prop
  | [], cs => Token [']'] cs
  | t :: ts, cs => ∃ item rest, t.Written item ∧ MoreItemsWritten ts rest ∧
      Token (',' :: (item ++ rest)) cs

/-- The texts of a record's entries, up to the closing brace. -/
def EntriesWritten : List (Option (List Char) × Tree) → List Char → Prop
  | [], cs => Token ['\x7d'] cs
  | (key, t) :: es, cs => ∃ front item rest, KeyWritten key front ∧ t.Written item ∧
      MoreEntriesWritten es rest ∧ cs = front ++ (item ++ rest)

/-- The texts of the entries after the first. -/
def MoreEntriesWritten : List (Option (List Char) × Tree) → List Char → Prop
  | [], cs => Token ['\x7d'] cs
  | (key, t) :: es, cs => ∃ front item rest, KeyWritten key front ∧ t.Written item ∧
      MoreEntriesWritten es rest ∧ Token (',' :: (front ++ (item ++ rest))) cs

end

/-- A whole text says what the tree says: blanks may also stand at its end. -/
def Tree.Says (t : Tree) (text : String) : Prop :=
  ∃ cs blank, t.Written cs ∧ Blank blank ∧ text.toList = cs ++ blank

end DiagnosticRelay.Json
