/-!
# Digits

The values of decimal and hexadecimal digits, and the number that a row of digits stands for.
-/

namespace DiagnosticRelay.Text

/-- The value of a hexadecimal digit. -/
def hexValue? (c : Char) : Option Nat :=
  if '0' ≤ c ∧ c ≤ '9' then some (c.toNat - '0'.toNat)
  else if 'a' ≤ c ∧ c ≤ 'f' then some (c.toNat - 'a'.toNat + 10)
  else if 'A' ≤ c ∧ c ≤ 'F' then some (c.toNat - 'A'.toNat + 10)
  else none

theorem hexValue?_digitChar {n : Nat} (h : n < 16) : hexValue? (Nat.digitChar n) = some n := by
  decide +revert

def digitValue (c : Char) : Nat := c.toNat - '0'.toNat

/-- The number a row of decimal digits stands for. -/
def naturalOf (digits : List Char) : Nat := digits.foldl (fun n d => n * 10 + digitValue d) 0

@[simp] theorem naturalOf_nil : naturalOf [] = 0 := rfl

theorem naturalOf_concat (digits : List Char) (d : Char) :
    naturalOf (digits ++ [d]) = naturalOf digits * 10 + digitValue d := by
  simp [naturalOf]

end DiagnosticRelay.Text
