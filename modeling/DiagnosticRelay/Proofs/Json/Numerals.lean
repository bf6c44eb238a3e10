import DiagnosticRelay.Proofs.Json.Scanning
import Mathlib.Data.List.Induction
import Mathlib.Data.Nat.Digits.Defs

/-!
# Reading numbers

A number has no end of its own, so what follows it must not start with a character that could belong
to it: the rest `Follows` the number. A whole number in plain digits is read as itself when it fits
a signed or an unsigned 64-bit word; a number in any other notation is never read as whole.
-/

namespace DiagnosticRelay.Json

open DiagnosticRelay.Text

/-! ## Digits -/

theorem naturalOf_eq_ofDigitChars (ds : List Char) : naturalOf ds = Nat.ofDigitChars 10 ds 0 := by
  unfold naturalOf Nat.ofDigitChars
  congr 1
  funext n d
  rw [Nat.mul_comm]
  rfl

@[simp] theorem naturalOf_toDigits (n : Nat) : naturalOf (Nat.toDigits 10 n) = n := by
  rw [naturalOf_eq_ofDigitChars, Nat.ofDigitChars_ten_toDigits]

theorem digits_toDigits (n : Nat) : Digits (Nat.toDigits 10 n) :=
  ⟨Nat.toDigits_ne_nil, fun _ hd => Nat.isDigit_of_mem_toDigits (by decide) (by decide) hd⟩

/-- No digits of a positive number lead with a zero. -/
theorem toDigits_ne_zero_cons {n : Nat} (hn : 0 < n) (ds : List Char) :
    Nat.toDigits 10 n ≠ '0' :: ds := by
  induction n using Nat.strong_induction_on generalizing ds with
  | _ n ih =>
    rw [Nat.toDigits_eq_if (by decide)]
    split_ifs with hsmall
    · intro h
      have hall : ∀ n < 10, 0 < n → Nat.digitChar n ≠ '0' := by decide
      exact hall n hsmall hn (List.cons.inj h).1
    · intro h
      rcases List.append_eq_cons_iff.mp h with ⟨hnil, -⟩ | ⟨ds', hfront, -⟩
      · exact Nat.toDigits_ne_nil hnil
      · exact ih (n / 10) (by omega) (by omega) ds' hfront

theorem natural_toDigits (n : Nat) : Natural (Nat.toDigits 10 n) := by
  refine ⟨digits_toDigits n, ?_⟩
  rcases Nat.eq_zero_or_pos n with rfl | hn
  · simp
  · exact fun d ds => toDigits_ne_zero_cons hn (d :: ds)

theorem toNat_of_isDigit {d : Char} (h : d.isDigit = true) : 48 ≤ d.toNat ∧ d.toNat ≤ 57 := by
  simpa [Char.isDigit, UInt32.le_iff_toNat_le] using h

theorem digitValue_lt {d : Char} (h : d.isDigit = true) : digitValue d < 10 := by
  have hd := toNat_of_isDigit h
  show d.toNat - 48 < 10
  omega

theorem digitChar_digitValue {d : Char} (h : d.isDigit = true) :
    Nat.digitChar (digitValue d) = d := by
  have hd := toNat_of_isDigit h
  apply Char.toNat_inj.mp
  rw [Nat.toNat_digitChar_of_lt_ten (digitValue_lt h)]
  show 48 + (d.toNat - 48) = d.toNat
  omega

/-- Digits without a leading zero are those of the number they stand for. -/
theorem Natural.toDigits_naturalOf {ds : List Char} (h : Natural ds) :
    Nat.toDigits 10 (naturalOf ds) = ds := by
  obtain ⟨⟨hne, hdigits⟩, hzero⟩ := h
  induction ds using List.reverseRecOn with
  | nil => exact absurd rfl hne
  | append_singleton front d ih =>
    have hd : d.isDigit = true := hdigits d (by simp)
    have hlast : Nat.toDigits 10 (digitValue d) = [d] := by
      rw [Nat.toDigits_of_lt_base (digitValue_lt hd), digitChar_digitValue hd]
    rw [naturalOf_concat]
    rcases List.eq_nil_or_concat front with rfl | ⟨_, _, hfront⟩
    · simpa using hlast
    · have hne : front ≠ [] := by simp [hfront]
      have hfrontDigits : ∀ c ∈ front, c.isDigit = true := fun c hc => hdigits c (by simp [hc])
      have hnoZero : ∀ c ds', front ≠ '0' :: c :: ds' := by
        rintro c ds' rfl
        exact hzero c (ds' ++ [d]) (by simp)
      have ih := ih hnoZero hne hfrontDigits
      have hpos : 0 < naturalOf front := by
        -- A front of value zero would be a leading zero.
        by_contra hzeroFront
        have hzeroFront : naturalOf front = 0 := by omega
        rw [hzeroFront] at ih
        exact hzero d [] (by rw [← ih]; rfl)
      rw [Nat.mul_comm, ← Nat.toDigits_append_toDigits (by decide) hpos (digitValue_lt hd), ih,
        hlast]

/-! ## What follows a number -/

/-- Whether a text can follow a number without being taken for a part of it. -/
def Follows (rest : List Char) : Prop :=
  ∀ c rest', rest = c :: rest' → c.isDigit = false ∧ c ≠ '.' ∧ c ≠ 'e' ∧ c ≠ 'E'

theorem follows_nil : Follows [] := nofun

/-- The characters between tokens, and those that end an item, can follow a number. -/
theorem follows_cons {c : Char} (h : c ∈ [' ', '\t', '\n', '\r', ',', ']', '\x7d'])
    (rest : List Char) : Follows (c :: rest) := by
  have hall : ∀ c ∈ [' ', '\t', '\n', '\r', ',', ']', '\x7d'],
      c.isDigit = false ∧ c ≠ '.' ∧ c ≠ 'e' ∧ c ≠ 'E' := by simp
  rintro d rest' heq
  obtain ⟨rfl, rfl⟩ := List.cons.inj heq
  exact hall c h

theorem digits_append {ds rest : List Char} (hds : ∀ d ∈ ds, d.isDigit = true)
    (hrest : ∀ c rest', rest = c :: rest' → c.isDigit = false) :
    digits (ds ++ rest) = (ds, rest) := by
  have hnone : rest.takeWhile Char.isDigit = [] ∧ rest.dropWhile Char.isDigit = rest := by
    cases rest with
    | nil => exact ⟨rfl, rfl⟩
    | cons c rest => simp [hrest c rest rfl]
  rw [digits, List.takeWhile_append_of_pos hds, List.dropWhile_append_of_pos hds, hnone.1, hnone.2,
    List.append_nil]

theorem Exponent.not_isDigit {exponent rest : List Char} (h : Exponent exponent)
    (hrest : Follows rest) : ∀ c rest', exponent ++ rest = c :: rest' → c.isDigit = false := by
  rintro c rest' heq
  rcases h with rfl | ⟨e, sign, ds, he, -, -, rfl⟩
  · exact (hrest c rest' heq).1
  · obtain ⟨rfl, -⟩ := List.cons.inj heq
    rcases he with rfl | rfl <;> rfl

/-- What comes after the digits in front of a point is not a digit. -/
theorem Fraction.not_isDigit {fraction exponent rest : List Char} (h : Fraction fraction)
    (hexponent : Exponent exponent) (hrest : Follows rest) :
    ∀ c rest', fraction ++ (exponent ++ rest) = c :: rest' → c.isDigit = false := by
  rcases h with rfl | ⟨ds, -, rfl⟩
  · exact hexponent.not_isDigit hrest
  · rintro c rest' heq
    obtain ⟨rfl, -⟩ := List.cons.inj heq
    rfl

/-! ## Whole numbers -/

/-- Whether a whole number fits a signed or an unsigned 64-bit word. -/
def FitsWord (n : Int) : Prop := -0x8000000000000000 ≤ n ∧ n ≤ 0xFFFFFFFFFFFFFFFF

/-- A number read with a fraction, an exponent or too many digits is real. -/
theorem real_of_bind {negative : Bool} {m : Nat} {power : Int} {rest rest' : List Char}
    {x : Number} (h : (do let x ← realNumber negative m power; .ok (x, rest)) = .ok (x, rest')) :
    ∃ y, x = .real negative y := by
  obtain ⟨z, hz, h⟩ := bind_eq_ok_iff.mp h
  obtain ⟨rfl, rfl⟩ := Prod.mk.inj (Except.ok.inj h)
  unfold realNumber at hz
  split at hz
  · exact ⟨_, (Except.ok.inj hz).symm⟩
  · simp at hz

theorem real_of_exponent {negative : Bool} {m : Nat} {power : Int} {cs rest : List Char}
    {x : Number} (h : exponent negative m power cs = .ok (x, rest)) :
    ∃ y, x = .real negative y := by
  unfold exponent at h
  dsimp only at h
  split at h
  · simp at h
  · simp at h
  · split_ifs at h
    · obtain ⟨rfl, rfl⟩ := Prod.mk.inj (Except.ok.inj h)
      exact ⟨_, rfl⟩
    · exact real_of_bind h
    · exact real_of_bind h

theorem real_of_fraction {negative : Bool} {m : Nat} {power : Int} {cs rest : List Char}
    {x : Number} (h : fraction negative m power cs = .ok (x, rest)) :
    ∃ y, x = .real negative y := by
  unfold fraction at h
  split at h
  · simp at h
  · simp at h
  · dsimp only at h
    split at h
    · exact real_of_exponent h
    · exact real_of_exponent h
    · exact real_of_bind h

/-- Digits with nothing else behind them are read as whole when the number fits. -/
theorem magnitude_eq_ok_whole_iff {negative : Bool} {ds rest rest' : List Char} {n : Int}
    (hds : Natural ds) (hrest : Follows rest) :
    magnitude negative (ds ++ rest) = .ok (.whole n, rest') ↔
      wholeNumber? negative (naturalOf ds) = some n ∧ rest' = rest := by
  have hdigits := digits_append hds.1.2 fun c rest' h => (hrest c rest' h).1
  unfold magnitude
  rw [hdigits]
  split
  · next heq => exact absurd (Prod.mk.inj heq).1 hds.1.1
  · next heq => exact absurd (Prod.mk.inj heq).1 hds.1.1
  · next heq => exact absurd (Prod.mk.inj heq).1 (hds.2 _ _)
  · next heq =>
    obtain ⟨rfl, rfl⟩ := Prod.mk.inj heq
    dsimp only
    split
    · exact absurd rfl (hrest _ _ rfl).2.1
    · exact absurd rfl (hrest _ _ rfl).2.2.1
    · exact absurd rfl (hrest _ _ rfl).2.2.2
    · cases hwhole : wholeNumber? negative (naturalOf ds) with
      | none =>
        constructor
        · intro h
          obtain ⟨y, hy⟩ := real_of_bind h
          simp at hy
        · rintro ⟨h, -⟩
          simp at h
      | some m =>
        simp only [Except.ok.injEq, Prod.mk.injEq, Number.whole.injEq, Option.some.injEq,
          eq_comm (a := rest)]

/-- Digits with a fraction or an exponent behind them are never read as whole. -/
theorem magnitude_ne_whole {negative : Bool} {ds fraction exponent rest rest' : List Char} {n : Int}
    (hds : Natural ds) (hfraction : Fraction fraction) (hexponent : Exponent exponent)
    (hrest : Follows rest) (hne : fraction ++ exponent ≠ []) :
    magnitude negative (ds ++ (fraction ++ (exponent ++ rest))) ≠ .ok (.whole n, rest') := by
  have hdigits := digits_append hds.1.2 (hfraction.not_isDigit hexponent hrest)
  intro h
  unfold magnitude at h
  rw [hdigits] at h
  split at h
  · simp at h
  · simp at h
  · simp at h
  · next heq =>
    obtain ⟨rfl, htail⟩ := Prod.mk.inj heq
    dsimp only at h
    split at h
    · obtain ⟨y, hy⟩ := real_of_fraction h
      simp at hy
    · obtain ⟨y, hy⟩ := real_of_exponent h
      simp at hy
    · obtain ⟨y, hy⟩ := real_of_exponent h
      simp at hy
    · next hpoint he hE =>
      rcases hfraction with rfl | ⟨fs, -, rfl⟩
      · rcases hexponent with rfl | ⟨e, sign, xs, he', -, -, rfl⟩
        · exact hne rfl
        · rcases he' with rfl | rfl
          · exact he _ htail.symm
          · exact hE _ htail.symm
      · exact hpoint _ htail.symm

theorem number_minus (cs : List Char) : number ('-' :: cs) = magnitude true cs := rfl

/-- A number without a minus sign starts with a digit. -/
theorem number_digits {ds : List Char} (hds : Digits ds) (rest : List Char) :
    number (ds ++ rest) = magnitude false (ds ++ rest) := by
  obtain ⟨d, ds', rfl⟩ := List.exists_cons_of_ne_nil hds.1
  have hd : d ≠ '-' := by
    rintro rfl
    exact absurd (hds.2 '-' List.mem_cons_self) (by decide)
  unfold number
  split
  · next heq => exact absurd (List.cons.inj heq).1 hd
  · rfl

/-- A sign and digits are read as a whole number that fits a word; minus zero is not whole. -/
theorem wholeNumber?_eq_some_iff {n : Nat} {m : Int} {negative : Bool} :
    wholeNumber? negative n = some m ↔
      m = (if negative then -(n : Int) else n) ∧ FitsWord m ∧ (negative = true → n ≠ 0) := by
  have hmax : wordMax = 0xFFFFFFFFFFFFFFFF := rfl
  unfold wholeNumber? FitsWord
  rw [hmax]
  cases negative with
  | true =>
    simp only [if_true, true_implies]
    split_ifs with h
    · simp only [false_iff]
      omega
    · simp only [Option.some.injEq]
      omega
  | false =>
    simp only [Bool.false_eq_true, if_false, false_implies, and_true]
    split_ifs with h
    · simp only [Option.some.injEq]
      omega
    · simp only [false_iff]
      omega

/-- A whole number in plain digits is read as itself when it fits a word. -/
theorem number_decimal_eq_ok_iff {n m : Int} {rest rest' : List Char} (hrest : Follows rest) :
    number (decimal n ++ rest) = .ok (.whole m, rest') ↔ FitsWord n ∧ m = n ∧ rest' = rest := by
  have hnatural := natural_toDigits n.natAbs
  unfold decimal
  split_ifs with hn
  · have habs : -(n.natAbs : Int) = n := by omega
    rw [List.cons_append, number_minus, magnitude_eq_ok_whole_iff hnatural hrest,
      wholeNumber?_eq_some_iff, naturalOf_toDigits, if_pos rfl, habs]
    constructor
    · rintro ⟨⟨rfl, hfits, -⟩, rfl⟩
      exact ⟨hfits, rfl, rfl⟩
    · rintro ⟨hfits, rfl, rfl⟩
      exact ⟨⟨rfl, hfits, fun _ => by omega⟩, rfl⟩
  · have habs : (n.natAbs : Int) = n := by omega
    rw [number_digits hnatural.1, magnitude_eq_ok_whole_iff hnatural hrest,
      wholeNumber?_eq_some_iff, naturalOf_toDigits, if_neg (by decide), habs]
    constructor
    · rintro ⟨⟨rfl, hfits, -⟩, rfl⟩
      exact ⟨hfits, rfl, rfl⟩
    · rintro ⟨hfits, rfl, rfl⟩
      exact ⟨⟨rfl, hfits, nofun⟩, rfl⟩

/-- A sign and digits are a plain whole number, unless they are minus zero. -/
theorem decimal_naturalOf {ds : List Char} (h : Natural ds) : decimal (naturalOf ds) = ds := by
  rw [decimal, if_neg (by omega), Int.natAbs_natCast, h.toDigits_naturalOf]

theorem decimal_neg_naturalOf {ds : List Char} (h : Natural ds) (hpos : naturalOf ds ≠ 0) :
    decimal (-naturalOf ds) = '-' :: ds := by
  rw [decimal, if_pos (by omega), Int.natAbs_neg, Int.natAbs_natCast, h.toDigits_naturalOf]

/-- A number in any other notation is not read as whole. -/
theorem number_ne_whole {numeral rest rest' : List Char} {m : Int} (h : Numeral numeral)
    (hreal : ∀ n, numeral ≠ decimal n) (hrest : Follows rest) :
    number (numeral ++ rest) ≠ .ok (.whole m, rest') := by
  obtain ⟨sign, ds, fraction, exponent, hsign, hds, hfraction, hexponent, rfl⟩ := h
  simp only [List.append_assoc]
  by_cases hplain : fraction ++ exponent = []
  · obtain ⟨rfl, rfl⟩ := List.append_eq_nil_iff.mp hplain
    simp only [List.append_nil] at hreal
    -- With neither fraction nor exponent only minus zero is left.
    rcases hsign with rfl | rfl
    · exact absurd (decimal_naturalOf hds).symm (hreal _)
    · have hzero : naturalOf ds = 0 := by
        by_contra hpos
        exact hreal _ (decimal_neg_naturalOf hds hpos).symm
      intro hread
      have hwhole := (magnitude_eq_ok_whole_iff hds hrest).mp hread
      rw [wholeNumber?_eq_some_iff] at hwhole
      exact hwhole.1.2.2 rfl hzero
  · have hmagnitude (negative : Bool) :
        magnitude negative (ds ++ (fraction ++ (exponent ++ rest))) ≠ .ok (.whole m, rest') :=
      magnitude_ne_whole hds hfraction hexponent hrest hplain
    rcases hsign with rfl | rfl
    · rw [List.nil_append, number_digits hds.1]
      exact hmagnitude false
    · exact hmagnitude true

/-! ## Numbers nobody asks for -/

theorem exponentSign_append {sign ds : List Char} (hsign : sign = [] ∨ sign = ['+'] ∨ sign = ['-'])
    (hds : Digits ds) (rest : List Char) :
    (exponentSign (sign ++ (ds ++ rest))).2 = ds ++ rest := by
  rcases hsign with rfl | rfl | rfl
  · obtain ⟨d, ds', rfl⟩ := List.exists_cons_of_ne_nil hds.1
    have hd := hds.2 d List.mem_cons_self
    simp only [List.nil_append, List.cons_append]
    unfold exponentSign
    split
    · next heq => exact absurd ((List.cons.inj heq).1 ▸ hd) (by decide)
    · next heq => exact absurd ((List.cons.inj heq).1 ▸ hd) (by decide)
    · rfl
  · rfl
  · rfl

theorem skipExponent_append {sign ds rest : List Char}
    (hsign : sign = [] ∨ sign = ['+'] ∨ sign = ['-']) (hds : Digits ds) (hrest : Follows rest) :
    skipExponent (sign ++ (ds ++ rest)) = .ok rest := by
  unfold skipExponent
  rw [exponentSign_append hsign hds, digits_append hds.2 fun c rest' h => (hrest c rest' h).1]
  split
  · next heq => exact absurd (Prod.mk.inj heq).1 hds.1
  · next heq => rw [(Prod.mk.inj heq).2]

theorem skipScale_append {exponent rest : List Char} (h : Exponent exponent)
    (hrest : Follows rest) : skipScale (exponent ++ rest) = .ok rest := by
  rcases h with rfl | ⟨e, sign, ds, he, hsign, hds, rfl⟩
  · rw [List.nil_append]
    unfold skipScale
    split
    · exact absurd rfl (hrest _ _ rfl).2.2.1
    · exact absurd rfl (hrest _ _ rfl).2.2.2
    · rfl
  · simp only [List.cons_append, List.append_assoc]
    rcases he with rfl | rfl
    · exact skipExponent_append hsign hds hrest
    · exact skipExponent_append hsign hds hrest

theorem skipMinus_append {sign ds : List Char} (hsign : sign = [] ∨ sign = ['-']) (hds : Digits ds)
    (rest : List Char) : skipMinus (sign ++ (ds ++ rest)) = ds ++ rest := by
  rcases hsign with rfl | rfl
  · obtain ⟨d, ds', rfl⟩ := List.exists_cons_of_ne_nil hds.1
    have hd := hds.2 d List.mem_cons_self
    simp only [List.nil_append, List.cons_append]
    unfold skipMinus
    split
    · next heq => exact absurd ((List.cons.inj heq).1 ▸ hd) (by decide)
    · rfl
  · rfl

/-- Any numeral is skipped up to its end. -/
theorem skipNumber_append {numeral rest : List Char} (h : Numeral numeral) (hrest : Follows rest) :
    skipNumber (numeral ++ rest) = .ok rest := by
  obtain ⟨sign, ds, fraction, exponent, hsign, hds, hfraction, hexponent, rfl⟩ := h
  simp only [List.append_assoc]
  unfold skipNumber
  rw [skipMinus_append hsign hds.1,
    digits_append hds.1.2 (hfraction.not_isDigit hexponent hrest)]
  split
  · next heq => exact absurd (Prod.mk.inj heq).1 hds.1.1
  · next heq => exact absurd (Prod.mk.inj heq).1 (hds.2 _ _)
  · next heq =>
    have htail := (Prod.mk.inj heq).2
    rcases hfraction with rfl | ⟨fs, hfs, rfl⟩
    · rcases hexponent with rfl | ⟨e, sign', xs, he, -, -, rfl⟩
      · exact absurd rfl (hrest _ _ htail).2.1
      · rcases he with rfl | rfl <;> exact absurd (List.cons.inj htail).1 (by decide)
    · obtain ⟨-, rfl⟩ := List.cons.inj htail
      rw [List.append_eq, digits_append hfs.2 (hexponent.not_isDigit hrest)]
      split
      · next heq => exact absurd (Prod.mk.inj heq).1 hfs.1
      · next heq =>
        obtain ⟨-, rfl⟩ := Prod.mk.inj heq
        exact skipScale_append hexponent hrest
  · next hpoint heq =>
    obtain ⟨rfl, rfl⟩ := Prod.mk.inj heq
    rcases hfraction with rfl | ⟨fs, hfs, rfl⟩
    · exact skipScale_append hexponent hrest
    · exact absurd rfl (hpoint _)

end DiagnosticRelay.Json
