import DiagnosticRelay.Json.Value
import DiagnosticRelay.Toml.Scalar
import Mathlib.Data.List.Basic

/-!
# Spelling of strings

How a string may be written between double quotes on one line: a character as it is, or by one of
its escapes, which are a letter for a few characters and a code point in hexadecimal digits for
every one. Whatever spelling is chosen, reading gives the string back (`string_append`), and every
string has a spelling (`spelled_spell`).
-/

namespace DiagnosticRelay.Toml

/-- The characters with an escape of a single letter. -/
def shortEscapes : List (Char × Char) := [
  ('\x08', 'b'), ('\t', 't'), ('\n', 'n'), ('\x0c', 'f'), ('\r', 'r'), ('\x1b', 'e'),
  ('"', '"'), ('\\', '\\')]

/-- The letters that open a code point, with the number of its digits. -/
def codeMarks : List (Char × Nat) := [('x', 2), ('u', 4), ('U', 8)]

/-- What may stand behind a backslash for a character. -/
inductive Escape : Char → List Char → Prop where
  | short {c letter : Char} (h : (c, letter) ∈ shortEscapes) : Escape c [letter]
  | code {c mark : Char} {digits : List Char} (hmark : (mark, digits.length) ∈ codeMarks)
    (hdigits : ∀ d ∈ digits, (Text.hexValue? d).isSome) (hvalue : numberOf 16 digits = c.toNat) :
    Escape c (mark :: digits)

/-- The texts that a string may have between its quotes. -/
inductive Spelled : List Char → List Char → Prop where
  | nil : Spelled [] []
  | plain {c : Char} {letters text : List Char} (hc : isPlain c = true) (hquote : c ≠ '"')
    (hslash : c ≠ '\\') (h : Spelled letters text) : Spelled (c :: letters) (c :: text)
  | escape {c : Char} {code letters text : List Char} (hc : Escape c code)
    (h : Spelled letters text) : Spelled (c :: letters) ('\\' :: (code ++ text))

/-- A string in double quotes. -/
inductive Basic : List Char → List Char → Prop where
  | quoted {letters text : List Char} (h : Spelled letters text) :
    Basic letters ('"' :: (text ++ ['"']))

/-! ## Reading -/

/-- Digits continue a number. -/
theorem hexNumber_append {digits : List Char} (h : ∀ d ∈ digits, (Text.hexValue? d).isSome)
    (n : Nat) (rest : List Char) :
    hexNumber digits.length n (digits ++ rest) =
      some (digits.foldl (fun n d => n * 16 + (Text.hexValue? d).getD 0) n, rest) := by
  induction digits generalizing n with
  | nil => rfl
  | cons d digits ih =>
    obtain ⟨k, hk⟩ := Option.isSome_iff_exists.mp (h d List.mem_cons_self)
    have hdigits : ∀ d ∈ digits, (Text.hexValue? d).isSome := fun e he =>
      h e (List.mem_cons_of_mem d he)
    rw [List.length_cons, List.cons_append, hexNumber, hk]
    exact (ih hdigits (n * 16 + k)).trans (by rw [List.foldl_cons, hk]; rfl)

theorem hexCharacter_append {c : Char} {digits : List Char}
    (h : ∀ d ∈ digits, (Text.hexValue? d).isSome) (hvalue : numberOf 16 digits = c.toNat)
    (rest : List Char) : hexCharacter digits.length (digits ++ rest) = some (c, rest) := by
  have hvalid : c.toNat.isValidChar := c.valid
  have hnumber : hexNumber digits.length 0 (digits ++ rest) = some (c.toNat, rest) := by
    rw [hexNumber_append h, ← hvalue]
    rfl
  rw [hexCharacter, hnumber]
  show (if c.toNat.isValidChar then some (Char.ofNat c.toNat, rest) else none) = _
  rw [if_pos hvalid, Char.ofNat_toNat]

/-- What stands behind a backslash is read as its character. -/
theorem escaped_append {c : Char} {code : List Char} (h : Escape c code) (rest : List Char) :
    escaped (code ++ rest) = some (c, rest) := by
  cases h with
  | short h =>
    simp only [shortEscapes, List.mem_cons, Prod.mk.injEq, List.not_mem_nil, or_false] at h
    rcases h with ⟨rfl, rfl⟩ | ⟨rfl, rfl⟩ | ⟨rfl, rfl⟩ | ⟨rfl, rfl⟩ | ⟨rfl, rfl⟩ | ⟨rfl, rfl⟩ |
      ⟨rfl, rfl⟩ | ⟨rfl, rfl⟩ <;> rfl
  | code hmark hdigits hvalue =>
    have hcharacter := hexCharacter_append hdigits hvalue rest
    simp only [codeMarks, List.mem_cons, Prod.mk.injEq, List.not_mem_nil, or_false] at hmark
    rcases hmark with ⟨rfl, hlength⟩ | ⟨rfl, hlength⟩ | ⟨rfl, hlength⟩ <;>
      rw [hlength] at hcharacter <;> exact hcharacter

/-- A spelled string is read up to the quote that ends it. -/
theorem basicWithin_append {letters text : List Char} (h : Spelled letters text) {n : Nat}
    (hn : text.length < n) (rest : List Char) :
    basicWithin n (text ++ '"' :: rest) = some (letters, rest) := by
  induction h generalizing n with
  | nil =>
    obtain ⟨n, rfl⟩ := Nat.exists_eq_add_one.mpr hn
    rfl
  | @plain c letters text hc hquote hslash _ ih =>
    obtain ⟨n, rfl⟩ := Nat.exists_eq_add_one.mpr (Nat.zero_lt_of_lt hn)
    have hmore := ih (Nat.lt_of_succ_lt_succ hn)
    simp only [List.cons_append, basicWithin, hc, hmore, if_true, Option.bind_eq_bind,
      Option.bind_some]
  | @escape c code letters text hc _ ih =>
    obtain ⟨n, rfl⟩ := Nat.exists_eq_add_one.mpr (Nat.zero_lt_of_lt hn)
    have hmore : basicWithin n (text ++ '"' :: rest) = some (letters, rest) := ih (by
      simp only [List.length_cons, List.length_append] at hn
      omega)
    simp only [List.cons_append, List.append_assoc, basicWithin, escaped_append hc, hmore,
      Option.bind_eq_bind, Option.bind_some]

/-- The first character of a spelled string is no quote. -/
theorem Spelled.head?_ne {letters text : List Char} (h : Spelled letters text) :
    text.head? ≠ some '"' := by
  cases h with
  | nil => simp
  | plain _ hquote _ _ => simpa using hquote
  | escape _ _ => simp

/-- A string in double quotes is read as its letters. An empty one must not have another quote
behind it, which would open a string over several lines. -/
theorem string_append {letters text : List Char} (h : Basic letters text) {rest : List Char}
    (hrest : rest.head? ≠ some '"') : string (text ++ rest) = some (letters, rest) := by
  cases h with
  | @quoted body h =>
    have hbody : basicWithin ((body ++ '"' :: rest).length + 1) (body ++ '"' :: rest) =
        some (letters, rest) :=
      basicWithin_append h (by simp only [List.length_append]; omega) rest
    rw [List.cons_append, List.append_assoc, List.singleton_append]
    unfold string
    split
    next more heq =>
      -- Three quotes: either the string is empty and the rest has one, or its text begins with one.
      have htail := (List.cons.inj heq).2
      cases body with
      | nil =>
        obtain rfl : rest = '"' :: more := (List.cons.inj htail).2
        exact absurd rfl hrest
      | cons c body =>
        obtain rfl : c = '"' := (List.cons.inj htail).1
        exact absurd rfl h.head?_ne
    next heq => simp at heq
    next heq =>
      rw [← (List.cons.inj heq).2]
      exact hbody
    next heq => simp at heq
    next hquote _ => exact absurd rfl (hquote _)

/-! ## Writing -/

/-- A character between quotes: quotes, backslashes and what may not stand as it is are escaped. -/
def spell (c : Char) : List Char :=
  if c = '"' ∨ c = '\\' then ['\\', c]
  else if isPlain c then [c]
  else ['\\', 'u', '0', '0'] ++ Json.hexPair c.toNat

theorem spelled_spell_append (c : Char) {letters text : List Char} (h : Spelled letters text) :
    Spelled (c :: letters) (spell c ++ text) := by
  unfold spell
  split_ifs with hmark hplain
  · have hshort : (c, c) ∈ shortEscapes := by
      rcases hmark with rfl | rfl <;> decide
    exact .escape (.short hshort) h
  · rw [not_or] at hmark
    exact .plain hplain hmark.1 hmark.2 h
  · have hsmall : c.toNat < 0x80 := by
      simp only [isPlain, Bool.or_eq_true, Bool.and_eq_true, decide_eq_true_eq, not_or] at hplain
      omega
    have hhigh : c.toNat / 16 < 16 := by omega
    have hlow : c.toNat % 16 < 16 := by omega
    have hdigits : ∀ d ∈ ['0', '0'] ++ Json.hexPair c.toNat, (Text.hexValue? d).isSome := by
      simp only [Json.hexPair, List.cons_append, List.nil_append, List.mem_cons, List.not_mem_nil,
        or_false, forall_eq_or_imp, forall_eq, Text.hexValue?_digitChar hhigh,
        Text.hexValue?_digitChar hlow, Option.isSome_some, and_true]
      decide
    have hvalue : numberOf 16 (['0', '0'] ++ Json.hexPair c.toNat) = c.toNat := by
      have hzero : Text.hexValue? '0' = some 0 := by decide
      simp only [numberOf, Json.hexPair, List.cons_append, List.nil_append, List.foldl_cons,
        List.foldl_nil, Text.hexValue?_digitChar hhigh, Text.hexValue?_digitChar hlow, hzero,
        Option.getD_some]
      omega
    have hmark : ('u', (['0', '0'] ++ Json.hexPair c.toNat).length) ∈ codeMarks :=
      List.mem_of_getElem? (i := 1) rfl
    exact .escape (.code hmark hdigits hvalue) h

/-- Every string has a spelling. -/
theorem spelled_spell (letters : List Char) : Spelled letters (letters.flatMap spell) := by
  induction letters with
  | nil => exact .nil
  | cons c letters ih =>
    rw [List.flatMap_cons]
    exact spelled_spell_append c ih

/-- A string in double quotes. -/
def quoted (s : String) : List Char := '"' :: (s.toList.flatMap spell ++ ['"'])

theorem basic_quoted (s : String) : Basic s.toList (quoted s) := .quoted (spelled_spell s.toList)

end DiagnosticRelay.Toml
