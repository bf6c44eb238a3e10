/-!
# Binary floating point, without its signs

The finite magnitudes of the 64-bit binary format: a mantissa below `2 ^ 53` times a power of two
not below `2 ^ -1074`. Arithmetic is exact on ratios of natural numbers and rounded once, to the
nearest magnitude and to the even mantissa of two equally near ones; a result too large for the
format is `none`.

Only what reading a decimal literal needs is here: rounding a ratio, a product and a quotient.
-/

namespace DiagnosticRelay.Decimal

def twoTo (k : Nat) : Nat := Nat.pow 2 k

def tenTo (k : Nat) : Nat := Nat.pow 10 k

/-- The quotient of two naturals rounded to the nearest natural, a half to the even one. -/
def roundDiv (n d : Nat) : Nat :=
  let q := n / d
  let r := n % d
  if 2 * r < d ∨ 2 * r = d ∧ q % 2 = 0 then q else q + 1

/-- A magnitude `mantissa * 2 ^ exponent`. -/
structure Binary64 where
  mantissa : Nat
  exponent : Int
  deriving DecidableEq, Repr, Inhabited

namespace Binary64

/-- The least exponent of the format. -/
def minExponent : Int := -1074

/-- The greatest exponent of the format. -/
def maxExponent : Int := 971

/-- The least mantissa of a magnitude whose exponent is not the least one, `2 ^ 52`. -/
def leastNormal : Nat := 0x10000000000000

def zero : Binary64 := ⟨0, minExponent⟩

/-- The magnitude as a numerator and a denominator. -/
def ratio (x : Binary64) : Nat × Nat :=
  (x.mantissa * twoTo x.exponent.toNat, twoTo (-x.exponent).toNat)

/-- The magnitude nearest to a ratio; `none` when it is too large. -/
def ofRatio? (n d : Nat) : Option Binary64 :=
  if n = 0 then some zero
  else
    let low : Int := (n.log2 : Int) - (d.log2 : Int) - 53
    let floorAt (e : Int) : Nat := n * twoTo (-e).toNat / (d * twoTo e.toNat)
    let e := max minExponent (if floorAt low < 2 * leastNormal then low else low + 1)
    let m := roundDiv (n * twoTo (-e).toNat) (d * twoTo e.toNat)
    let x : Binary64 := if m = 2 * leastNormal then ⟨leastNormal, e + 1⟩ else ⟨m, e⟩
    if x.exponent ≤ maxExponent then some x else none

/-- The magnitude nearest to a natural number. -/
def ofNat? (n : Nat) : Option Binary64 := ofRatio? n 1

/-- The rounded product of two magnitudes. -/
def mul? (x y : Binary64) : Option Binary64 :=
  ofRatio? (x.ratio.1 * y.ratio.1) (x.ratio.2 * y.ratio.2)

/-- The rounded quotient of two magnitudes. -/
def div? (x y : Binary64) : Option Binary64 :=
  ofRatio? (x.ratio.1 * y.ratio.2) (x.ratio.2 * y.ratio.1)

end Binary64

end DiagnosticRelay.Decimal
