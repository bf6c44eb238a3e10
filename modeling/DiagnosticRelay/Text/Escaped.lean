import DiagnosticRelay.Text.Unprintable

/-!
# Texts quoted for a reader

A text between double quotes in which a tab, a carriage return, a line feed, a quote, a backslash
and the null character have a short escape, and every other character that cannot be shown by itself
stands as its code point in braces.
-/

namespace DiagnosticRelay.Text

/-- A character inside the quotes. -/
def escapedChar (c : Char) : List Char :=
  if c = '\x00' then ['\\', '0']
  else if c = '\t' then ['\\', 't']
  else if c = '\r' then ['\\', 'r']
  else if c = '\n' then ['\\', 'n']
  else if c = '"' then ['\\', '"']
  else if c = '\\' then ['\\', '\\']
  else if isUnprintable c then ['\\', 'u', '\x7b'] ++ Nat.toDigits 16 c.toNat ++ ['\x7d']
  else [c]

/-- The text between quotes. -/
def escaped (cs : List Char) : List Char := '"' :: (cs.flatMap escapedChar ++ ['"'])

end DiagnosticRelay.Text
