import DiagnosticRelay.Decimal.Binary64
import DiagnosticRelay.Toml.Text

/-!
# Numbers, truth values and moments of TOML

The values without quotes and brackets. Such a value is a run of characters up to one that has a
meaning of its own; blanks end it when nothing follows them that could belong to it. The run is read
as a whole: it is a truth value, a whole number, a real number or a moment, or it is refused.

Of a real number only its size is kept, and of a moment nothing: no setting has such a value, but
one that is out of range must not pass where values are skipped. A run may have the outline of a
whole number and yet not be one; such a run is only refused where its value is looked at.
-/

namespace DiagnosticRelay.Toml

open DiagnosticRelay.Decimal

/-- A value without parts. -/
inductive Scalar where
  | text (s : String)
  | truth (b : Bool)
  /-- A whole number, or what has no more than the outline of one. -/
  | whole (n : Option Int)
  /-- A real number, and whether it is too large for the binary format. -/
  | real (isTooLarge : Bool)
  /-- A date, a time or both. -/
  | moment
  deriving DecidableEq, Repr

/-- Whether underscores stand only between digits. -/
def hasInnerUnderscores : List Char → Bool
  | [] => false
  | ['_'] => false
  | [_] => true
  | '_' :: '_' :: _ => false
  | _ :: rest => hasInnerUnderscores rest

/-- The digits at the front of a text, without the underscores between them. -/
def digitRun (isDigit : Char → Bool) : Reader (List Char) := fun cs =>
  let run := cs.takeWhile fun c => isDigit c || c == '_'
  if run.head? ≠ some '_' ∧ hasInnerUnderscores run then
    some (run.filter isDigit, cs.drop run.length)
  else none

/-- The number that digits stand for in a base of up to sixteen. -/
def numberOf (base : Nat) (digits : List Char) : Nat :=
  digits.foldl (fun n d => n * base + (Text.hexValue? d).getD 0) 0

/-- Whether digits start with a zero that is not all of them. -/
def hasLeadingZero : List Char → Bool
  | '0' :: _ :: _ => true
  | _ => false

/-- A sign at the front of a text: whether it is a minus, and the text after it. -/
def sign : List Char → Bool × List Char
  | '-' :: rest => (true, rest)
  | '+' :: rest => (false, rest)
  | cs => (false, cs)

/-- A whole number with a base in front, which is an outline without any digits. -/
def based? : List Char → Option (Option Int)
  | '0' :: 'x' :: rest => allOf 16 (fun c => (Text.hexValue? c).isSome) rest
  | '0' :: 'o' :: rest => allOf 8 (fun c => '0' ≤ c && c ≤ '7') rest
  | '0' :: 'b' :: rest => allOf 2 (fun c => c == '0' || c == '1') rest
  | _ => none
where
  /-- The number of a text that is all digits. -/
  allOf (base : Nat) (isDigit : Char → Bool) (cs : List Char) : Option (Option Int) :=
    if cs.isEmpty then some none
    else
      match digitRun isDigit cs with
      | some (digits, []) => some (some (numberOf base digits))
      | _ => none

/-- Whether every underscore stands between two digits, which may be hexadecimal ones. -/
def hasOutline : List Char → Bool
  | a :: '_' :: b :: rest =>
    (Text.hexValue? a).isSome && (Text.hexValue? b).isSome && hasOutline (b :: rest)
  | [_, '_'] => false
  | _ :: rest => hasOutline rest
  | [] => true

/-- Whether a text without a sign has at least the outline of a decimal whole number: digits up to
an underscore, and behind it no characters of a real number and no space. -/
def isOutline (cs : List Char) : Bool :=
  let digits := cs.takeWhile Char.isDigit
  let rest := cs.drop digits.length
  ! hasLeadingZero cs && ! digits.isEmpty && rest.head? == some '_' && hasOutline cs &&
    ! rest.any fun c => c == '.' || c == 'e' || c == 'E' || c == ' '

/-- Whether a decimal is too large for the binary format. -/
def isTooLarge (digits : List Char) (power : Int) : Bool :=
  let significant := digits.dropWhile (· == '0')
  let place := (significant.length : Int) + power
  if significant.isEmpty || place < 300 then false
  else if place > 400 then true
  else (Binary64.ofRatio? (numberOf 10 digits * tenTo power.toNat) (tenTo (-power).toNat)).isNone

/-- The exponent that is left of a real number; 0 when nothing is left. -/
def exponent? : List Char → Option Int
  | [] => some 0
  | e :: rest =>
    if e = 'e' ∨ e = 'E' then
      let (isNegative, rest) := sign rest
      match digitRun Char.isDigit rest with
      | some (digits, []) =>
        let n := numberOf 10 digits
        some (if isNegative then -(n : Int) else n)
      | _ => none
    else none

def decimal? (cs : List Char) : Option Scalar := do
  let (isNegative, rest) := sign cs
  let (digits, rest) ← digitRun Char.isDigit rest
  if hasLeadingZero digits then none
  else
    match rest with
    | [] =>
      let n := numberOf 10 digits
      some (.whole (some (if isNegative then -(n : Int) else n)))
    | '.' :: rest => do
      let (fraction, rest) ← digitRun Char.isDigit rest
      let power ← exponent? rest
      some (.real (isTooLarge (digits ++ fraction) (power - fraction.length)))
    | rest => do
      let power ← exponent? rest
      some (.real (isTooLarge digits power))

/-! ## Moments -/

/-- The number of exactly two decimal digits at the front of a text. -/
def twoDigits : Reader Nat
  | a :: b :: rest =>
    if a.isDigit ∧ b.isDigit then some (numberOf 10 [a, b], rest) else none
  | _ => none

def daysIn (year month : Nat) : Nat :=
  if month = 2 then (if year % 4 = 0 ∧ (year % 100 ≠ 0 ∨ year % 400 = 0) then 29 else 28)
  else if month ∈ [4, 6, 9, 11] then 30
  else 31

/-- The text after a date. -/
def date? (cs : List Char) : Option (List Char) := do
  let (century, rest) ← twoDigits cs
  let (year, rest) ← twoDigits rest
  let '-' :: rest := rest | none
  let (month, rest) ← twoDigits rest
  let '-' :: rest := rest | none
  let (day, rest) ← twoDigits rest
  if 1 ≤ month ∧ month ≤ 12 ∧ 1 ≤ day ∧ day ≤ daysIn (century * 100 + year) month then some rest
  else none

/-- The text after the seconds of a time, which may be left out. -/
def seconds? : List Char → Option (List Char)
  | ':' :: rest => do
    let (second, rest) ← twoDigits rest
    if second ≤ 60 then
      match rest with
      | '.' :: rest =>
        if rest.head?.any Char.isDigit then some (rest.dropWhile Char.isDigit) else none
      | rest => some rest
    else none
  | rest => some rest

/-- The text after a time. -/
def time? (cs : List Char) : Option (List Char) := do
  let (hour, rest) ← twoDigits cs
  let ':' :: rest := rest | none
  let (minute, rest) ← twoDigits rest
  if hour ≤ 23 ∧ minute ≤ 59 then seconds? rest else none

/-- Whether a text is nothing or the offset of a time. -/
def isOffset : List Char → Bool
  | [] => true
  | ['z'] => true
  | ['Z'] => true
  | s :: rest =>
    (s == '+' || s == '-') &&
      match twoDigits rest with
      | some (hour, ':' :: rest) =>
        match twoDigits rest with
        | some (minute, []) => hour ≤ 23 && minute ≤ 59
        | _ => false
      | _ => false

/-- Whether a text is a date, a time or both. -/
def isMoment (cs : List Char) : Bool :=
  match date? cs with
  | some [] => true
  | some (t :: rest) =>
    (t == 'T' || t == 't' || t == ' ') &&
      match time? rest with
      | some rest => isOffset rest
      | none => false
  | none => time? cs == some []

/-! ## All of them -/

/-- The value of a run of characters. -/
def scalarOf? (cs : List Char) : Option Scalar :=
  if cs = ['t', 'r', 'u', 'e'] then some (.truth true)
  else if cs = ['f', 'a', 'l', 's', 'e'] then some (.truth false)
  else if (sign cs).2 ∈ [['i', 'n', 'f'], ['n', 'a', 'n']] then some (.real false)
  else if isMoment cs then some .moment
  else
    match based? cs, decimal? cs with
    | some n, _ => some (.whole n)
    | none, some s => some s
    | none, none => if isOutline (sign cs).2 then some (.whole none) else none

/-- The characters that end a value without quotes and brackets, blanks apart. -/
def enders : List Char := ['=', ',', '[', ']', '\x7b', '\x7d', '#', '\n', '\r']

/-- Whether a text goes on with a value, now that blanks have been read. -/
def goesOn : List Char → Bool
  | [] => false
  | c :: _ => ! enders.contains c && c != '.' && c != '"' && c != '\''

/-- The run of characters at the front of a text that make up a value. -/
def runOf : List Char → List Char
  | [] => []
  | c :: rest =>
    if isBlank c then (if goesOn (skipBlank rest) then c :: runOf rest else [])
    else if enders.contains c then []
    else c :: runOf rest

/-- A value without quotes and brackets. -/
def scalar : Reader Scalar := fun cs => do
  let run := runOf cs
  some (← scalarOf? run, cs.drop run.length)

end DiagnosticRelay.Toml
