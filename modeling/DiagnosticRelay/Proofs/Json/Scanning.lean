import DiagnosticRelay.Proofs.Json.Tree
import Mathlib.Data.List.Basic
import Mathlib.Tactic.Common

/-!
# Reading blanks and strings

What the readers of blanks and strings do on the tokens of the grammar. A reader that has found its
token leaves what follows it, so the statements are about a token with a rest behind it.
-/

namespace DiagnosticRelay.Json

open DiagnosticRelay.Text

/-- A chain of readings succeeds when each of them does. -/
theorem bind_eq_ok_iff {ε α β : Type} {x : Except ε α} {f : α → Except ε β} {b : β} :
    x >>= f = .ok b ↔ ∃ a, x = .ok a ∧ f a = .ok b := by
  cases x with
  | error e => simp [bind, Except.bind]
  | ok a => simp [bind, Except.bind]

@[simp] theorem ok_bind {ε α β : Type} (a : α) (f : α → Except ε β) :
    (Except.ok a >>= f) = f a := rfl

@[simp] theorem error_bind {ε α β : Type} (e : ε) (f : α → Except ε β) :
    (Except.error e >>= f) = .error e := rfl

/-! ## Blanks -/

theorem isBlank_iff {c : Char} :
    isBlank c = true ↔ c = ' ' ∨ c = '\t' ∨ c = '\n' ∨ c = '\r' := by
  simp only [isBlank, Bool.or_eq_true, beq_iff_eq]
  tauto

theorem skipBlank_append {blank : List Char} (h : Blank blank) (cs : List Char) :
    skipBlank (blank ++ cs) = skipBlank cs := by
  induction blank with
  | nil => rfl
  | cons c blank ih =>
    have hc : isBlank c = true := isBlank_iff.mpr (h c List.mem_cons_self)
    have hblank : Blank blank := fun d hd => h d (List.mem_cons_of_mem _ hd)
    rw [List.cons_append, skipBlank, if_pos hc, ih hblank]

/-- Blanks in front of a token are skipped up to its first character. -/
theorem Token.skipBlank {c : Char} {token cs : List Char} (h : Token (c :: token) cs)
    (hc : isBlank c = false) (rest : List Char) :
    skipBlank (cs ++ rest) = c :: (token ++ rest) := by
  obtain ⟨blank, hblank, rfl⟩ := h
  rw [List.append_assoc, skipBlank_append hblank, List.cons_append, skipBlank_of_not_isBlank hc]

theorem Token.length_le {token cs : List Char} (h : Token token cs) :
    token.length ≤ cs.length := by
  obtain ⟨blank, -, rfl⟩ := h
  rw [List.length_append]
  exact Nat.le_add_left _ _

/-! ## Strings -/

theorem Spells.body {body letters : List Char} (h : Spells body letters) : Body body := by
  induction h with
  | nil => exact .nil
  | plain hc _ ih => exact .plain hc ih
  | short he _ ih => exact .short he ih
  | code hn _ _ _ ih => exact .code hn ih
  | pair hn _ hm _ _ ih => exact .code hn (.code hm ih)

instance (c : Char) : Decidable (Plain c) := inferInstanceAs (Decidable (_ ∧ _))

theorem spells_plain {letters : List Char} (h : ∀ c ∈ letters, Plain c) :
    Spells letters letters := by
  induction letters with
  | nil => exact .nil
  | cons c cs ih =>
    exact .plain (h c List.mem_cons_self) (ih fun d hd => h d (List.mem_cons_of_mem _ hd))

theorem shortEscape?_eq_some_iff {e c : Char} :
    shortEscape? e = some c ↔ (e, c) ∈ shortEscapes := by
  unfold shortEscape?
  split_ifs <;> simp_all [shortEscapes, eq_comm]

theorem hexQuad_of_quad {a b c d : Char} {n : Nat} (h : Quad a b c d n) (rest : List Char) :
    hexQuad (a :: b :: c :: d :: rest) = .ok (n, rest) := by
  obtain ⟨w, x, y, z, ha, hb, hc, hd, rfl⟩ := h
  simp only [hexQuad, ha, hb, hc, hd]

/-! ### The characters of a string, one by one -/

theorem stringChar_plain {c : Char} (h : Plain c) (rest : List Char) :
    stringChar (c :: rest) = .ok (some c, rest) := by
  obtain ⟨hc, hquote, hslash⟩ := h
  unfold stringChar
  split <;> simp_all

theorem stringChar_short {e c : Char} (h : (e, c) ∈ shortEscapes) (rest : List Char) :
    stringChar ('\\' :: e :: rest) = .ok (some c, rest) := by
  have he := shortEscape?_eq_some_iff.mpr h
  have hu : e ≠ 'u' := by
    rintro rfl
    simp [shortEscape?] at he
  rw [stringChar]
  · simp only [he]
  · simpa using hu

/-- An escape by code stands for what its digits, and those behind them, stand for. -/
theorem stringChar_code {a b c d : Char} {n : Nat} (h : Quad a b c d n) (rest : List Char) :
    stringChar ('\\' :: 'u' :: a :: b :: c :: d :: rest) =
      if isTrailing n then .error .loneSurrogate
      else if isLeading n then do
        let (m, rest) ← secondHalf rest
        .ok (some (Char.ofNat (0x10000 + (n - 0xD800) * 0x400 + (m - 0xDC00))), rest)
      else .ok (some (Char.ofNat n), rest) := by
  simp only [stringChar, hexCharacter, hexQuad_of_quad h, bind, Except.bind]
  split_ifs
  · rfl
  · cases secondHalf rest with
    | error e => simp only
    | ok half => simp only
  · rfl

theorem secondHalf_code {a b c d : Char} {n : Nat} (h : Quad a b c d n) (rest : List Char) :
    secondHalf ('\\' :: 'u' :: a :: b :: c :: d :: rest) =
      if isTrailing n then .ok (n, rest) else .error .loneSurrogate := by
  simp only [secondHalf, hexQuad_of_quad h, bind, Except.bind]

/-- The second half of a pair has to be an escape by code. -/
theorem secondHalf_eq_ok {body rest rest' : List Char} {m : Nat} (hbody : Body body)
    (h : secondHalf (body ++ '"' :: rest) = .ok (m, rest')) :
    ∃ a b c d body', Quad a b c d m ∧ isTrailing m = true ∧ Body body' ∧
      body = '\\' :: 'u' :: a :: b :: c :: d :: body' ∧ rest' = body' ++ '"' :: rest := by
  cases hbody with
  | nil => simp [secondHalf] at h
  | @plain c body hc hbody =>
    obtain ⟨-, -, hslash⟩ := hc
    unfold secondHalf at h
    split at h <;> simp_all
  | @short e c body he hbody =>
    have he' := shortEscape?_eq_some_iff.mpr he
    have hu : e ≠ 'u' := by
      rintro rfl
      simp [shortEscape?] at he'
    unfold secondHalf at h
    split at h <;> simp_all
  | @code a b c d n body' hn hbody =>
    simp only [List.cons_append] at h
    rw [secondHalf_code hn] at h
    split_ifs at h with htrailing
    obtain ⟨rfl, rfl⟩ := Prod.mk.inj (Except.ok.inj h)
    exact ⟨a, b, c, d, body', hn, htrailing, hbody, rfl, rfl⟩

/-! ### Whole strings -/

/-- A string goes on after a character as it would without it. -/
theorem stringWithin_succ_eq_ok_iff {n : Nat} {cs rest letters rest' : List Char} {c : Char}
    (h : stringChar cs = .ok (some c, rest)) :
    stringWithin (n + 1) cs = .ok (letters, rest') ↔
      ∃ more, letters = c :: more ∧ stringWithin n rest = .ok (more, rest') := by
  rw [stringWithin, h, ok_bind]
  constructor
  · intro hread
    obtain ⟨⟨more, rest₁⟩, hmore, hlast⟩ := bind_eq_ok_iff.mp hread
    obtain ⟨rfl, rfl⟩ := Prod.mk.inj (Except.ok.inj hlast)
    exact ⟨more, rfl, hmore⟩
  · rintro ⟨more, rfl, hmore⟩
    exact bind_eq_ok_iff.mpr ⟨(more, rest'), hmore, rfl⟩

/-- The character that an escape by code stands for when it is no half of a pair. -/
theorem stringChar_code_single {a b c d : Char} {n : Nat} (h : Quad a b c d n)
    (hleading : isLeading n = false) (htrailing : isTrailing n = false) (rest : List Char) :
    stringChar ('\\' :: 'u' :: a :: b :: c :: d :: rest) = .ok (some (Char.ofNat n), rest) := by
  rw [stringChar_code h, if_neg (by simp [htrailing]), if_neg (by simp [hleading])]

theorem stringChar_pair {a b c d a' b' c' d' : Char} {n m : Nat} (hn : Quad a b c d n)
    (hleading : isLeading n = true) (hm : Quad a' b' c' d' m) (htrailing : isTrailing m = true)
    (rest : List Char) :
    stringChar
        ('\\' :: 'u' :: a :: b :: c :: d :: '\\' :: 'u' :: a' :: b' :: c' :: d' :: rest) =
      .ok (some (Char.ofNat (0x10000 + (n - 0xD800) * 0x400 + (m - 0xDC00))), rest) := by
  have hleads : isTrailing n = false := by
    simp only [isLeading, isTrailing, Bool.and_eq_true, decide_eq_true_eq, Bool.and_eq_false_iff,
      decide_eq_false_iff_not] at hleading ⊢
    omega
  rw [stringChar_code hn, if_neg (by simp [hleads]), if_pos hleading, secondHalf_code hm,
    if_pos htrailing]
  simp only [bind, Except.bind]

theorem stringWithin_of_spells {body letters : List Char} (h : Spells body letters) {n : Nat}
    (hn : body.length < n) (rest : List Char) :
    stringWithin n (body ++ '"' :: rest) = .ok (letters, rest) := by
  induction h generalizing n with
  | nil =>
    obtain ⟨n, rfl⟩ := Nat.exists_eq_add_of_lt hn
    rfl
  | plain hc _ ih =>
    obtain ⟨n, rfl⟩ : ∃ k, n = k + 1 := ⟨n - 1, by omega⟩
    rw [List.length_cons, Nat.add_lt_add_iff_right] at hn
    exact (stringWithin_succ_eq_ok_iff (stringChar_plain hc _)).mpr ⟨_, rfl, ih hn⟩
  | short he _ ih =>
    obtain ⟨n, rfl⟩ : ∃ k, n = k + 1 := ⟨n - 1, by omega⟩
    simp only [List.length_cons] at hn
    exact (stringWithin_succ_eq_ok_iff (stringChar_short he _)).mpr ⟨_, rfl, ih (by omega)⟩
  | code hk hleading htrailing _ ih =>
    obtain ⟨n, rfl⟩ : ∃ k, n = k + 1 := ⟨n - 1, by omega⟩
    simp only [List.length_cons] at hn
    exact (stringWithin_succ_eq_ok_iff (stringChar_code_single hk hleading htrailing _)).mpr
      ⟨_, rfl, ih (by omega)⟩
  | pair hk hleading hm htrailing _ ih =>
    obtain ⟨n, rfl⟩ : ∃ k, n = k + 1 := ⟨n - 1, by omega⟩
    simp only [List.length_cons] at hn
    exact (stringWithin_succ_eq_ok_iff (stringChar_pair hk hleading hm htrailing _)).mpr
      ⟨_, rfl, ih (by omega)⟩

theorem spells_of_stringWithin {n : Nat} {body rest letters rest' : List Char} (hbody : Body body)
    (h : stringWithin n (body ++ '"' :: rest) = .ok (letters, rest')) :
    Spells body letters ∧ rest' = rest := by
  induction n generalizing body letters with
  | zero => simp [stringWithin] at h
  | succ n ih =>
    cases hbody with
    | nil =>
      obtain ⟨rfl, rfl⟩ := Prod.mk.inj (Except.ok.inj h)
      exact ⟨.nil, rfl⟩
    | plain hc hbody =>
      obtain ⟨more, rfl, hmore⟩ := (stringWithin_succ_eq_ok_iff (stringChar_plain hc _)).mp h
      obtain ⟨hspells, rfl⟩ := ih hbody hmore
      exact ⟨.plain hc hspells, rfl⟩
    | short he hbody =>
      obtain ⟨more, rfl, hmore⟩ := (stringWithin_succ_eq_ok_iff (stringChar_short he _)).mp h
      obtain ⟨hspells, rfl⟩ := ih hbody hmore
      exact ⟨.short he hspells, rfl⟩
    | @code a b c d k body hk hbody =>
      cases htrailing : isTrailing k with
      | true =>
        rw [stringWithin, List.cons_append, List.cons_append, List.cons_append, List.cons_append,
          List.cons_append, List.cons_append, stringChar_code hk, if_pos htrailing] at h
        simp [bind, Except.bind] at h
      | false =>
        cases hleading : isLeading k with
        | false =>
          obtain ⟨more, rfl, hmore⟩ :=
            (stringWithin_succ_eq_ok_iff (stringChar_code_single hk hleading htrailing _)).mp h
          obtain ⟨hspells, rfl⟩ := ih hbody hmore
          exact ⟨.code hk hleading htrailing hspells, rfl⟩
        | true =>
          -- The half of a pair is only read with the other half behind it.
          have hread := h
          rw [stringWithin] at hread
          obtain ⟨first, hfirst, -⟩ := bind_eq_ok_iff.mp hread
          simp only [List.cons_append] at hfirst
          rw [stringChar_code hk, if_neg (by simp [htrailing]), if_pos hleading] at hfirst
          obtain ⟨⟨m, rest₁⟩, hhalf, -⟩ := bind_eq_ok_iff.mp hfirst
          obtain ⟨a', b', c', d', body', hm, hmtrailing, hbody', rfl, -⟩ :=
            secondHalf_eq_ok hbody hhalf
          obtain ⟨more, rfl, hmore⟩ :=
            (stringWithin_succ_eq_ok_iff (stringChar_pair hk hleading hm hmtrailing _)).mp h
          obtain ⟨hspells, rfl⟩ := ih hbody' hmore
          exact ⟨.pair hk hleading hm hmtrailing hspells, rfl⟩

/-- A string is read as the letters it stands for, and not at all if it stands for none. -/
theorem string_eq_ok_iff {body rest letters rest' : List Char} (hbody : Body body) :
    string (body ++ '"' :: rest) = .ok (letters, rest') ↔
      Spells body letters ∧ rest' = rest := by
  constructor
  · exact spells_of_stringWithin hbody
  · rintro ⟨hspells, rfl⟩
    refine stringWithin_of_spells hspells ?_ _
    simp only [List.length_append, List.length_cons]
    omega

/-- A string stands for at most one text. -/
theorem Spells.unique {body letters letters' : List Char} (h : Spells body letters)
    (h' : Spells body letters') : letters = letters' := by
  have hread : string (body ++ ['"']) = .ok (letters, []) := (string_eq_ok_iff h.body).mpr ⟨h, rfl⟩
  have hread' : string (body ++ ['"']) = .ok (letters', []) :=
    (string_eq_ok_iff h'.body).mpr ⟨h', rfl⟩
  rw [hread] at hread'
  exact (Prod.mk.inj (Except.ok.inj hread')).1

theorem skipStringWithin_of_body {body : List Char} (h : Body body) {n : Nat}
    (hn : body.length < n) (rest : List Char) :
    skipStringWithin n (body ++ '"' :: rest) = .ok rest := by
  induction h generalizing n with
  | nil =>
    obtain ⟨n, rfl⟩ := Nat.exists_eq_add_of_lt hn
    rfl
  | @plain c body hc _ ih =>
    obtain ⟨n, rfl⟩ : ∃ k, n = k + 1 := ⟨n - 1, by omega⟩
    rw [List.length_cons, Nat.add_lt_add_iff_right] at hn
    obtain ⟨hcode, hquote, hslash⟩ := hc
    rw [List.cons_append, skipStringWithin, if_neg (Nat.not_lt.mpr hcode), ih hn]
    all_goals simp [hquote, hslash]
  | @short e c body he _ ih =>
    obtain ⟨n, rfl⟩ : ∃ k, n = k + 1 := ⟨n - 1, by omega⟩
    have hn : body.length < n := by simp only [List.length_cons] at hn; omega
    have he' := shortEscape?_eq_some_iff.mpr he
    have hu : e ≠ 'u' := by
      rintro rfl
      simp [shortEscape?] at he'
    simp only [List.cons_append]
    rw [skipStringWithin, if_pos (by simp [he'])]
    · exact ih hn
    · simpa using hu
  | @code a b c d k body hk _ ih =>
    obtain ⟨n, rfl⟩ : ∃ k, n = k + 1 := ⟨n - 1, by omega⟩
    have hn : body.length < n := by simp only [List.length_cons] at hn; omega
    simp only [List.cons_append, skipStringWithin, hexQuad_of_quad hk, bind, Except.bind, ih hn]

theorem skipString_of_body {body : List Char} (h : Body body) (rest : List Char) :
    skipString (body ++ '"' :: rest) = .ok rest := by
  refine skipStringWithin_of_body h ?_ rest
  simp only [List.length_append, List.length_cons]
  omega

end DiagnosticRelay.Json
