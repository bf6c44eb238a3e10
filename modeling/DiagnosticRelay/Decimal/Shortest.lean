import DiagnosticRelay.Decimal.Binary64

/-!
# The fewest digits that read back

`Binary64.shortest` finds the decimal with the fewest digits among those that round to a magnitude,
and of these the nearest one; of two equally near ones it is the one with an even last digit. For
one digit, two digits and so on it tests the two neighbours of the magnitude on that decimal grid;
seventeen digits always suffice.

The text is positional when the first digit's place is from `10 ^ -5` up to `10 ^ 15`, always with a
point; elsewhere it has an exponent with its sign.
-/

namespace DiagnosticRelay.Decimal

/-- Decimal digits and the power of ten of the first one's place. -/
structure Digits where
  digits : List Char
  place : Int
  deriving DecidableEq, Repr

namespace Binary64

/-- Whether a ratio rounds to the magnitude: it lies between the midpoints to the two neighbours,
ends included when the mantissa is even. -/
def covers (x : Binary64) (n d : Nat) : Bool :=
  let p := twoTo x.exponent.toNat
  let q := twoTo (-x.exponent).toNat
  let below := if x.mantissa = leastNormal ∧ x.exponent ≠ minExponent then 1 else 2
  let left := n * (4 * q)
  let lower := (4 * x.mantissa - below) * p * d
  let upper := (4 * x.mantissa + 2) * p * d
  if x.mantissa % 2 = 0 then lower ≤ left && left ≤ upper else lower < left && left < upper

/-- The power of ten of the first digit of a positive ratio. -/
def leadingPlace (n d : Nat) : Int :=
  if d ≤ n then ((Nat.toDigits 10 (n / d)).length : Int) - 1
  else -((Nat.toDigits 10 ((d - 1) / n)).length : Int)

/-- The digits of a natural number on a grid, without the zeros at the end. -/
def gridDigits (count : Nat) (place : Int) (n : Nat) : Digits :=
  let digits := Nat.toDigits 10 n
  ⟨(digits.reverse.dropWhile (· == '0')).reverse, place + (digits.length : Int) - (count : Int)⟩

/-- The shortest decimal on the grids of `count` digits and more. -/
def shortestFrom (x : Binary64) (place : Int) : (left count : Nat) → Digits
  | 0, _ => ⟨['0'], 0⟩
  | left + 1, count =>
    let (n, d) := x.ratio
    let step : Int := place + 1 - (count : Int)
    let num := n * tenTo (-step).toNat
    let den := d * tenTo step.toNat
    let low := num / den
    let fits (k : Nat) : Bool := x.covers (k * tenTo step.toNat) (tenTo (-step).toNat)
    match fits low, fits (low + 1) with
    | true, true =>
      gridDigits count place (roundDiv num den)
    | true, false => gridDigits count place low
    | false, true => gridDigits count place (low + 1)
    | false, false => shortestFrom x place left (count + 1)

/-- The decimal with the fewest digits that rounds to the magnitude. -/
def shortest (x : Binary64) : Digits :=
  if x.mantissa = 0 then ⟨['0'], 0⟩
  else shortestFrom x (leadingPlace x.ratio.1 x.ratio.2) 17 1

end Binary64

namespace Digits

/-- The places whose digits are written positionally. -/
def positional (place : Int) : Bool := -5 ≤ place && place < 16

/-- The digits as text, positional or with an exponent. -/
def text (x : Digits) : List Char :=
  if positional x.place then
    if x.place < 0 then
      '0' :: '.' :: (List.replicate ((-x.place).toNat - 1) '0' ++ x.digits)
    else
      let whole := x.place.toNat + 1
      let padded := x.digits ++ List.replicate (whole - x.digits.length) '0'
      let fraction := padded.drop whole
      padded.take whole ++ '.' :: (if fraction.isEmpty then ['0'] else fraction)
  else
    let rest := x.digits.drop 1
    x.digits.take 1 ++ (if rest.isEmpty then [] else '.' :: rest) ++
      'e' :: (if x.place < 0 then '-' else '+') :: Nat.toDigits 10 x.place.natAbs

end Digits

end DiagnosticRelay.Decimal
