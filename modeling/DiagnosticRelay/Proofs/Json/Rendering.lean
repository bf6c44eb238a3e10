import DiagnosticRelay.Json.Value
import DiagnosticRelay.Proofs.Json.Numerals

/-!
# Written values can be told apart

The compact text of a value has no line feed, since the escapes stand for every control character,
and it determines the value. More is true and is what the induction needs: a value can be read off
the front of a longer text, as long as no digit follows that could belong to a number. Quotes and
brackets mark the end of everything else.
-/

namespace DiagnosticRelay.Json

open DiagnosticRelay.Text

/-- Induction over a value, with the hypothesis for every item and every field. -/
@[elab_as_elim]
theorem Value.induction {P : Value → Prop} (text : ∀ s, P (.text s)) (number : ∀ n, P (.number n))
    (list : ∀ items, (∀ v ∈ items, P v) → P (.list items))
    (record : ∀ fields, (∀ f ∈ fields, P f.2) → P (.record fields)) : ∀ v, P v
  | .text s => text s
  | .number n => number n
  | .list items => list items fun v _ => Value.induction text number list record v
  | .record fields =>
    record fields fun f hf => by
      have hsize := List.sizeOf_lt_of_mem hf
      have hvalue : sizeOf f = 1 + sizeOf f.1 + sizeOf f.2 := rfl
      exact Value.induction text number list record f.2
termination_by v => sizeOf v

/-! ## Strings -/

/-- A character's escape stands for the character. -/
theorem spells_escape (c : Char) {body letters : List Char} (h : Spells body letters) :
    Spells (escape c ++ body) (c :: letters) := by
  unfold escape
  split_ifs with h₁ h₂ h₃ h₄ h₅ h₆ h₇ h₈
  iterate 7
    subst c
    exact .short (by decide) h
  · have hquad : Quad '0' '0' (Nat.digitChar (c.toNat / 16)) (Nat.digitChar (c.toNat % 16))
        c.toNat :=
      ⟨0, 0, c.toNat / 16, c.toNat % 16, by decide, by decide, hexValue?_digitChar (by omega),
        hexValue?_digitChar (by omega), by omega⟩
    have hleading : isLeading c.toNat = false := by simp [isLeading]; omega
    have htrailing : isTrailing c.toNat = false := by simp [isTrailing]; omega
    have hspells := Spells.code hquad hleading htrailing h
    rwa [Char.ofNat_toNat] at hspells
  · exact .plain ⟨by omega, h₁, h₂⟩ h

theorem spells_escapes (cs : List Char) : Spells (cs.flatMap escape) cs := by
  induction cs with
  | nil => exact .nil
  | cons c cs ih =>
    rw [List.flatMap_cons]
    exact spells_escape c ih

/-- A quoted string can be read off the front of a text. -/
theorem quote_append_inj {cs ds r s : List Char} (h : quote cs ++ r = quote ds ++ s) :
    cs = ds ∧ r = s := by
  have hbody : cs.flatMap escape ++ '"' :: r = ds.flatMap escape ++ '"' :: s := by
    simpa [quote] using h
  have hread (es t : List Char) : string (es.flatMap escape ++ '"' :: t) = .ok (es, t) :=
    (string_eq_ok_iff (spells_escapes es).body).mpr ⟨spells_escapes es, rfl⟩
  have hboth : (.ok (cs, r) : Except Error _) = .ok (ds, s) := by
    rw [← hread, ← hread, hbody]
  exact Prod.mk.inj (Except.ok.inj hboth)

theorem newline_ne_digitChar {n : Nat} (h : n < 16) : '\n' ≠ Nat.digitChar n := by
  decide +revert

theorem newline_not_mem_escape (c : Char) : '\n' ∉ escape c := by
  unfold escape
  split_ifs with h₁ h₂ h₃ h₄ h₅ h₆ h₇ h₈
  iterate 7 decide
  · have hhigh : '\n' ≠ Nat.digitChar (c.toNat / 16) := newline_ne_digitChar (by omega)
    have hlow : '\n' ≠ Nat.digitChar (c.toNat % 16) := newline_ne_digitChar (by omega)
    simp [hexPair, hhigh, hlow]
  · simp [Ne.symm h₅]

theorem newline_not_mem_quote (cs : List Char) : '\n' ∉ quote cs := by
  simp [quote, newline_not_mem_escape]

/-! ## Values -/

/-- The characters that a value can begin with. -/
def Value.OpensWith : Value → Char → Prop
  | .text _, c => c = '"'
  | .number _, c => c.isDigit = true
  | .list _, c => c = '['
  | .record _, c => c = '\x7b'

theorem Value.exists_render_eq_cons (v : Value) : ∃ c cs, v.render = c :: cs ∧ v.OpensWith c := by
  cases v with
  | text s => exact ⟨_, _, rfl, rfl⟩
  | number n =>
    obtain ⟨hne, hdigits⟩ := digits_toDigits n
    obtain ⟨d, ds, hds⟩ := List.exists_cons_of_ne_nil hne
    exact ⟨d, ds, hds, hdigits d (hds ▸ List.mem_cons_self)⟩
  | list items => cases items <;> exact ⟨_, _, rfl, rfl⟩
  | record fields => rcases fields with _ | ⟨⟨k, v⟩, fields⟩ <;> exact ⟨_, _, rfl, rfl⟩

/-- No digit follows. -/
def NoDigit (rest : List Char) : Prop := ∀ d ds, rest = d :: ds → d.isDigit = false

theorem noDigit_cons {c : Char} (h : c.isDigit = false) (cs : List Char) : NoDigit (c :: cs) := by
  rintro d ds heq
  rwa [← (List.cons.inj heq).1]

theorem toDigits_append_inj {m n : Nat} {r s : List Char} (hr : NoDigit r) (hs : NoDigit s)
    (h : Nat.toDigits 10 m ++ r = Nat.toDigits 10 n ++ s) : m = n ∧ r = s := by
  have hboth : digits (Nat.toDigits 10 m ++ r) = digits (Nat.toDigits 10 n ++ s) := by rw [h]
  rw [digits_append (digits_toDigits m).2 hr, digits_append (digits_toDigits n).2 hs] at hboth
  obtain ⟨hdigits, rfl⟩ := Prod.mk.inj hboth
  refine ⟨?_, rfl⟩
  rw [← naturalOf_toDigits m, hdigits, naturalOf_toDigits]

/-- A value can be read off the front of a text. -/
def Value.Told (v : Value) : Prop :=
  ∀ w r s, NoDigit r → NoDigit s → v.render ++ r = w.render ++ s → v = w ∧ r = s

theorem noDigit_renderItems (items : List Value) (r : List Char) :
    NoDigit (renderItems items ++ r) := by
  cases items <;> exact noDigit_cons rfl _

theorem noDigit_renderFields (fields : List (String × Value)) (r : List Char) :
    NoDigit (renderFields fields ++ r) := by
  rcases fields with _ | ⟨⟨k, v⟩, fields⟩ <;> exact noDigit_cons rfl _

/-- The items of a list up to its end can be read off the front of a text. -/
theorem renderItems_append_inj {vs : List Value} (hvs : ∀ v ∈ vs, v.Told) {ws : List Value}
    {r s : List Char} (h : renderItems vs ++ r = renderItems ws ++ s) : vs = ws ∧ r = s := by
  induction vs generalizing ws with
  | nil =>
    cases ws with
    | nil => exact ⟨rfl, by simpa [renderItems] using h⟩
    | cons w ws => simp [renderItems] at h
  | cons v vs ih =>
    cases ws with
    | nil => simp [renderItems] at h
    | cons w ws =>
      have h : v.render ++ (renderItems vs ++ r) = w.render ++ (renderItems ws ++ s) := by
        simpa [renderItems] using h
      obtain ⟨rfl, hrest⟩ := hvs v List.mem_cons_self w _ _ (noDigit_renderItems vs r)
        (noDigit_renderItems ws s) h
      obtain ⟨rfl, rfl⟩ := ih (fun u hu => hvs u (List.mem_cons_of_mem _ hu)) hrest
      exact ⟨rfl, rfl⟩

/-- The first field with all that follows it. -/
theorem field_append_inj {k l : String} {v w : Value} (hv : v.Told) {r s : List Char}
    (hr : NoDigit r) (hs : NoDigit s)
    (h : quote k.toList ++ ':' :: (v.render ++ r) = quote l.toList ++ ':' :: (w.render ++ s)) :
    (k, v) = (l, w) ∧ r = s := by
  obtain ⟨hkey, hrest⟩ := quote_append_inj h
  obtain ⟨rfl, rfl⟩ := hv w r s hr hs (List.cons.inj hrest).2
  exact ⟨by rw [String.toList_inj.mp hkey], rfl⟩

theorem renderFields_append_inj {fs : List (String × Value)} (hfs : ∀ f ∈ fs, f.2.Told)
    {gs : List (String × Value)} {r s : List Char}
    (h : renderFields fs ++ r = renderFields gs ++ s) : fs = gs ∧ r = s := by
  induction fs generalizing gs with
  | nil =>
    rcases gs with _ | ⟨⟨l, w⟩, gs⟩
    · exact ⟨rfl, by simpa [renderFields] using h⟩
    · simp [renderFields] at h
  | cons f fs ih =>
    obtain ⟨k, v⟩ := f
    rcases gs with _ | ⟨⟨l, w⟩, gs⟩
    · simp [renderFields] at h
    · have h : quote k.toList ++ ':' :: (v.render ++ (renderFields fs ++ r)) =
          quote l.toList ++ ':' :: (w.render ++ (renderFields gs ++ s)) := by
        simpa [renderFields] using h
      obtain ⟨hfield, hrest⟩ := field_append_inj (hfs _ List.mem_cons_self)
        (noDigit_renderFields fs r) (noDigit_renderFields gs s) h
      obtain ⟨rfl, rfl⟩ := ih (fun g hg => hfs g (List.mem_cons_of_mem _ hg)) hrest
      rw [hfield]
      exact ⟨rfl, rfl⟩

/-- Values whose texts are fronts of one text begin alike. -/
theorem exists_opensWith {v w : Value} {r s : List Char} (h : v.render ++ r = w.render ++ s) :
    ∃ c, v.OpensWith c ∧ w.OpensWith c := by
  obtain ⟨c, cs, hv, hc⟩ := v.exists_render_eq_cons
  obtain ⟨d, ds, hw, hd⟩ := w.exists_render_eq_cons
  rw [hv, hw] at h
  exact ⟨c, hc, (List.cons.inj h).1 ▸ hd⟩

theorem render_append_ne_cons {v : Value} {c : Char} (hc : c ∉ ['"', '[', '\x7b'])
    (hdigit : c.isDigit = false) (r s : List Char) : v.render ++ r ≠ c :: s := by
  intro h
  obtain ⟨d, ds, hv, hd⟩ := v.exists_render_eq_cons
  rw [hv] at h
  obtain rfl := (List.cons.inj h).1
  cases v with
  | number n =>
    have hd : d.isDigit = true := hd
    rw [hdigit] at hd
    cases hd
  | text _ | list _ | record _ =>
    obtain rfl := hd
    exact hc (by decide)

theorem renderList_append_inj {vs ws : List Value} (hvs : ∀ v ∈ vs, v.Told) {r s : List Char}
    (h : (Value.list vs).render ++ r = (Value.list ws).render ++ s) : vs = ws ∧ r = s := by
  cases vs with
  | nil =>
    cases ws with
    | nil => exact ⟨rfl, by simpa [Value.render] using h⟩
    | cons w ws =>
      have h : w.render ++ (renderItems ws ++ s) = ']' :: r := by
        simpa [Value.render] using h.symm
      exact absurd h (render_append_ne_cons (by decide) rfl _ _)
  | cons v vs =>
    cases ws with
    | nil =>
      have h : v.render ++ (renderItems vs ++ r) = ']' :: s := by
        simpa [Value.render] using h
      exact absurd h (render_append_ne_cons (by decide) rfl _ _)
    | cons w ws =>
      -- Behind the opening bracket it is as if a comma had been read.
      have h : renderItems (v :: vs) ++ r = renderItems (w :: ws) ++ s := by
        simpa [Value.render, renderItems] using h
      exact renderItems_append_inj hvs h

theorem renderRecord_append_inj {fs gs : List (String × Value)} (hfs : ∀ f ∈ fs, f.2.Told)
    {r s : List Char} (h : (Value.record fs).render ++ r = (Value.record gs).render ++ s) :
    fs = gs ∧ r = s := by
  rcases fs with _ | ⟨⟨k, v⟩, fs⟩ <;> rcases gs with _ | ⟨⟨l, w⟩, gs⟩
  · exact ⟨rfl, by simpa [Value.render] using h⟩
  · simp [Value.render, quote] at h
  · simp [Value.render, quote] at h
  · have h : renderFields ((k, v) :: fs) ++ r = renderFields ((l, w) :: gs) ++ s := by
      simpa [Value.render, renderFields] using h
    exact renderFields_append_inj hfs h

/-- Every value can be read off the front of a text. -/
theorem Value.told (v : Value) : v.Told := by
  induction v using Value.induction with
  | text a =>
    intro w r s hr hs h
    obtain ⟨c, hc, hw⟩ := exists_opensWith h
    obtain rfl : c = '"' := hc
    cases w with
    | text b =>
      obtain ⟨hletters, rfl⟩ := quote_append_inj h
      exact ⟨by rw [String.toList_inj.mp hletters], rfl⟩
    | number _ | list _ | record _ => cases hw
  | number n =>
    intro w r s hr hs h
    obtain ⟨c, hc, hw⟩ := exists_opensWith h
    cases w with
    | number m =>
      obtain ⟨rfl, rfl⟩ := toDigits_append_inj hr hs h
      exact ⟨rfl, rfl⟩
    | text _ | list _ | record _ =>
      obtain rfl := hw
      cases hc
  | list vs ih =>
    intro w r s hr hs h
    obtain ⟨c, hc, hw⟩ := exists_opensWith h
    obtain rfl : c = '[' := hc
    cases w with
    | list ws =>
      obtain ⟨rfl, rfl⟩ := renderList_append_inj ih h
      exact ⟨rfl, rfl⟩
    | text _ | number _ | record _ => cases hw
  | record fs ih =>
    intro w r s hr hs h
    obtain ⟨c, hc, hw⟩ := exists_opensWith h
    obtain rfl : c = '\x7b' := hc
    cases w with
    | record gs =>
      obtain ⟨rfl, rfl⟩ := renderRecord_append_inj ih h
      exact ⟨rfl, rfl⟩
    | text _ | number _ | list _ => cases hw

/-! ## Lines -/

theorem newline_not_mem_renderItems {vs : List Value} (hvs : ∀ v ∈ vs, '\n' ∉ v.render) :
    '\n' ∉ renderItems vs := by
  induction vs with
  | nil => simp [renderItems]
  | cons v vs ih =>
    have hv := hvs v List.mem_cons_self
    have htail := ih fun u hu => hvs u (List.mem_cons_of_mem _ hu)
    simp [renderItems, hv, htail]

theorem newline_not_mem_renderFields {fs : List (String × Value)}
    (hfs : ∀ f ∈ fs, '\n' ∉ f.2.render) : '\n' ∉ renderFields fs := by
  induction fs with
  | nil => simp [renderFields]
  | cons f fs ih =>
    obtain ⟨k, v⟩ := f
    have hv : '\n' ∉ v.render := hfs (k, v) List.mem_cons_self
    have htail := ih fun g hg => hfs g (List.mem_cons_of_mem _ hg)
    simp [renderFields, newline_not_mem_quote, hv, htail]

/-- The text of a value is on one line. -/
theorem newline_not_mem_render (v : Value) : '\n' ∉ v.render := by
  induction v using Value.induction with
  | text s => exact newline_not_mem_quote _
  | number n =>
    intro h
    exact absurd ((digits_toDigits n).2 _ h) (by decide)
  | list vs ih =>
    cases vs with
    | nil => simp [Value.render]
    | cons v vs =>
      have hitems := newline_not_mem_renderItems ih
      simpa [Value.render, renderItems] using hitems
  | record fs ih =>
    rcases fs with _ | ⟨⟨k, v⟩, fs⟩
    · simp [Value.render]
    · have hfields := newline_not_mem_renderFields ih
      simpa [Value.render, renderFields] using hfields

end DiagnosticRelay.Json
