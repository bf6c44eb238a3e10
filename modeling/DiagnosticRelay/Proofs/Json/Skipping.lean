import DiagnosticRelay.Json.Skip
import DiagnosticRelay.Proofs.Json.Numerals

/-!
# Skipping what nobody asks for

Any text of the grammar is skipped up to its end, whatever it says. The skipper keeps the lists and
records it is inside of on a stack, so the induction over the tree is about a value at any depth:
after its front, and as many further values as it has inside, the skipper is where it would be if
the value were complete.
-/

namespace DiagnosticRelay.Json

/-! ## Where tokens begin -/

/-- The characters that a value can begin with. -/
def Tree.OpensWith : Tree → Char → Prop
  | .null, c => c = 'n'
  | .truth true, c => c = 't'
  | .truth false, c => c = 'f'
  | .whole _, c => c = '-' ∨ c.isDigit = true
  | .real, c => c = '-' ∨ c.isDigit = true
  | .text _, c => c = '"'
  | .list _, c => c = '['
  | .record _, c => c = '\x7b'

theorem ne_of_isDigit {c : Char} (h : c = '-' ∨ c.isDigit = true) :
    isBlank c = false ∧ c ≠ ',' ∧ c ≠ ']' ∧ c ≠ '\x7d' := by
  rcases h with rfl | h
  · decide
  · refine ⟨?_, ?_, ?_, ?_⟩
    · rw [Bool.eq_false_iff]
      intro hblank
      rcases isBlank_iff.mp hblank with rfl | rfl | rfl | rfl <;> exact absurd h (by decide)
    all_goals
      rintro rfl
      exact absurd h (by decide)

/-- A value begins with none of the characters between values. -/
theorem Tree.OpensWith.ne {t : Tree} {c : Char} (h : t.OpensWith c) :
    isBlank c = false ∧ c ≠ ',' ∧ c ≠ ']' ∧ c ≠ '\x7d' := by
  cases t with
  | truth b => cases b <;> (obtain rfl := h; decide)
  | whole n => exact ne_of_isDigit h
  | real => exact ne_of_isDigit h
  | null | text _ | list _ | record _ => obtain rfl := h; decide

theorem numeral_decimal (n : Int) : Numeral (decimal n) := by
  have hnatural := natural_toDigits n.natAbs
  unfold decimal
  split_ifs
  · exact ⟨['-'], _, [], [], .inr rfl, hnatural, .inl rfl, .inl rfl, by simp⟩
  · exact ⟨[], _, [], [], .inl rfl, hnatural, .inl rfl, .inl rfl, by simp⟩

theorem Numeral.opens {numeral : List Char} (h : Numeral numeral) :
    ∃ c cs, numeral = c :: cs ∧ (c = '-' ∨ c.isDigit = true) := by
  obtain ⟨sign, ds, fraction, exponent, rfl | rfl, hds, -, -, rfl⟩ := h
  · obtain ⟨d, ds', rfl⟩ := List.exists_cons_of_ne_nil hds.1.1
    exact ⟨d, _, rfl, .inr (hds.1.2 d List.mem_cons_self)⟩
  · exact ⟨'-', _, rfl, .inl rfl⟩

theorem Token.refl (token : List Char) : Token token token := ⟨[], nofun, rfl⟩

/-- A value without the blanks in front of it. -/
theorem Tree.Written.exists_bare {t : Tree} {cs : List Char} (h : t.Written cs) :
    ∃ c bare, t.OpensWith c ∧ Token (c :: bare) cs ∧ t.Written (c :: bare) := by
  cases t with
  | null => exact ⟨'n', _, rfl, h, Token.refl _⟩
  | truth b =>
    cases b with
    | true => exact ⟨'t', _, rfl, h, Token.refl _⟩
    | false => exact ⟨'f', _, rfl, h, Token.refl _⟩
  | whole n =>
    obtain ⟨c, bare, heq, hc⟩ := (numeral_decimal n).opens
    have h : Token (c :: bare) cs := heq ▸ h
    have hbare : Token (decimal n) (c :: bare) := heq ▸ Token.refl (decimal n)
    exact ⟨c, bare, hc, h, hbare⟩
  | real =>
    obtain ⟨numeral, hnumeral, hreal, htoken⟩ := h
    obtain ⟨c, bare, rfl, hc⟩ := hnumeral.opens
    exact ⟨c, bare, hc, htoken, _, hnumeral, hreal, Token.refl _⟩
  | text letters =>
    obtain ⟨quoted, hquoted, htoken⟩ := h
    obtain ⟨body, rfl, hbody⟩ := hquoted
    exact ⟨'"', _, rfl, htoken, _, ⟨body, rfl, hbody⟩, Token.refl _⟩
  | list items =>
    obtain ⟨inside, hinside, htoken⟩ := h
    exact ⟨'[', inside, rfl, htoken, inside, hinside, Token.refl _⟩
  | record entries =>
    obtain ⟨inside, hinside, htoken⟩ := h
    exact ⟨'\x7b', inside, rfl, htoken, inside, hinside, Token.refl _⟩

/-- What ends an item can follow a number. -/
theorem Token.follows {c : Char} {token cs : List Char} (h : Token (c :: token) cs)
    (hc : c ∈ [',', ']', '\x7d']) (rest : List Char) : Follows (cs ++ rest) := by
  obtain ⟨blank, hblank, rfl⟩ := h
  cases blank with
  | nil =>
    refine follows_cons ?_ _
    simp only [List.mem_cons] at hc ⊢
    tauto
  | cons b blank =>
    refine follows_cons ?_ _
    have hb := hblank b List.mem_cons_self
    simp only [List.mem_cons]
    tauto

/-! ## Sequences of elements -/

/-- Goes on from where a step has led, for at most so many values. -/
def goOn (n : Nat) (step : Except Error (List Enclosure × List Char)) : Except Error (List Char) :=
  step >>= fun next => skipWithin n next.1 next.2

theorem skipBlank_skipBlank (cs : List Char) : skipBlank (skipBlank cs) = skipBlank cs := by
  induction cs with
  | nil => rfl
  | cons c cs ih =>
    cases hc : isBlank c with
    | true => rw [skipBlank, if_pos hc, ih]
    | false => rw [skipBlank_of_not_isBlank hc, skipBlank_of_not_isBlank hc]

/-- Every element is read after blanks, so they make no difference. -/
theorem skipWithin_skipBlank (n : Nat) (e : Enclosure) (outer : List Enclosure) (cs : List Char) :
    skipWithin n (e :: outer) (skipBlank cs) = skipWithin n (e :: outer) cs := by
  cases n with
  | zero => rfl
  | succ n =>
    cases e with
    | list => simp only [skipWithin, skipKey, skipFront, skipBlank_skipBlank, ok_bind]
    | record => simp only [skipWithin, skipKey, skipBlank_skipBlank]

/-- A text that is skipped as an item of a list or an entry of a record. -/
structure Element (e : Enclosure) (cs : List Char) : Prop where
  opens : ∀ rest, ∃ c cs', skipBlank (cs ++ rest) = c :: cs' ∧ c ≠ e.closer
  skipped : ∃ k, k < cs.length ∧ ∀ n outer rest, Follows rest →
    skipWithin (n + k + 1) (e :: outer) (cs ++ rest) = goOn n (leave (e :: outer) rest)

/-- What follows an element, up to the end of the list or record. -/
inductive Tail (e : Enclosure) : List Char → Prop where
  | stop {cs : List Char} (h : Token [e.closer] cs) : Tail e cs
  | next {element more cs : List Char} (helement : Element e element) (hmore : Tail e more)
      (h : Token (',' :: (element ++ more)) cs) : Tail e cs

theorem closer_mem (e : Enclosure) : e.closer ∈ [',', ']', '\x7d'] := by
  cases e <;> decide

theorem isBlank_closer (e : Enclosure) : isBlank e.closer = false := by
  cases e <;> rfl

theorem Tail.follows {e : Enclosure} {cs : List Char} (h : Tail e cs) (rest : List Char) :
    Follows (cs ++ rest) := by
  cases h with
  | stop htoken => exact htoken.follows (closer_mem e) rest
  | next _ _ htoken => exact htoken.follows (by decide) rest

theorem leave_closer {e : Enclosure} {cs : List Char} (h : Token [e.closer] cs)
    (outer : List Enclosure) (rest : List Char) :
    leave (e :: outer) (cs ++ rest) = leave outer rest := by
  have hcomma : e.closer ≠ ',' := by cases e <;> decide
  rw [leave, h.skipBlank (isBlank_closer e)]
  simp only [if_neg hcomma, List.nil_append, if_true]

theorem leave_comma {e : Enclosure} {token cs : List Char} (h : Token (',' :: token) cs)
    (outer : List Enclosure) (rest : List Char) :
    leave (e :: outer) (cs ++ rest) = .ok (e :: outer, token ++ rest) := by
  rw [leave, h.skipBlank rfl]
  simp only [if_true]

/-- The skipper leaves the list or record after the elements still to come. -/
theorem Tail.skipped {e : Enclosure} {cs : List Char} (h : Tail e cs) :
    ∃ k, k < cs.length ∧ ∀ n outer rest,
      goOn (n + k) (leave (e :: outer) (cs ++ rest)) = goOn n (leave outer rest) := by
  induction h with
  | stop htoken =>
    refine ⟨0, htoken.length_le, ?_⟩
    intro n outer rest
    rw [leave_closer htoken, Nat.add_zero]
  | @next element more cs helement hmore htoken ih =>
    obtain ⟨k, hk, helement⟩ := helement.skipped
    obtain ⟨l, hl, hmoreSkipped⟩ := ih
    have hlength := htoken.length_le
    simp only [List.length_cons, List.length_append] at hlength
    refine ⟨l + k + 1, by omega, ?_⟩
    intro n outer rest
    calc goOn (n + (l + k + 1)) (leave (e :: outer) (cs ++ rest))
        = skipWithin (n + l + k + 1) (e :: outer) (element ++ (more ++ rest)) := by
          rw [leave_comma htoken, goOn, ok_bind, List.append_assoc]
          congr 1
          omega
      _ = goOn (n + l) (leave (e :: outer) (more ++ rest)) :=
          helement _ _ _ (hmore.follows rest)
      _ = goOn n (leave outer rest) := hmoreSkipped n outer rest

/-- What stands in a list or record after its opening character. -/
inductive Inside (e : Enclosure) : List Char → Prop where
  | stop {cs : List Char} (h : Token [e.closer] cs) : Inside e cs
  | elements {element more : List Char} (helement : Element e element) (hmore : Tail e more) :
      Inside e (element ++ more)

theorem Inside.skipped {e : Enclosure} {cs : List Char} (h : Inside e cs) :
    ∃ k, k ≤ cs.length ∧ ∀ n outer rest,
      goOn (n + k) (enter e outer (cs ++ rest)) = goOn n (leave outer rest) := by
  cases h with
  | stop htoken =>
    refine ⟨0, Nat.zero_le _, ?_⟩
    intro n outer rest
    rw [enter, htoken.skipBlank (isBlank_closer e)]
    simp only [if_true, List.nil_append, Nat.add_zero]
  | @elements element more helement hmore =>
    obtain ⟨k, hk, hskipped⟩ := helement.skipped
    obtain ⟨l, hl, hmoreSkipped⟩ := hmore.skipped
    refine ⟨l + k + 1, by rw [List.length_append]; omega, ?_⟩
    intro n outer rest
    obtain ⟨c, cs', hfront, hc⟩ := helement.opens (more ++ rest)
    calc goOn (n + (l + k + 1)) (enter e outer (element ++ more ++ rest))
        = skipWithin (n + l + k + 1) (e :: outer) (element ++ (more ++ rest)) := by
          rw [enter, List.append_assoc, hfront]
          simp only [if_neg hc, goOn, ok_bind]
          rw [← hfront, skipWithin_skipBlank]
          congr 1
          omega
      _ = goOn (n + l) (leave (e :: outer) (more ++ rest)) :=
          hskipped _ _ _ (hmore.follows rest)
      _ = goOn n (leave outer rest) := hmoreSkipped n outer rest

/-! ## Values -/

/-- A text that is skipped as a value at any depth. -/
def Skipped (cs : List Char) : Prop :=
  ∃ k, k < cs.length ∧ ∀ n outer rest, Follows rest →
    goOn (n + k) (skipFront outer (cs ++ rest)) = goOn n (leave outer rest)

/-- A value without values inside is left as soon as it has been read. -/
theorem Skipped.of_front {cs : List Char} (hne : cs ≠ [])
    (h : ∀ outer rest, Follows rest → skipFront outer (cs ++ rest) = leave outer rest) :
    Skipped cs := by
  refine ⟨0, List.length_pos_iff.mpr hne, ?_⟩
  intro n outer rest hrest
  rw [h outer rest hrest, Nat.add_zero]

theorem Skipped.of_inside {e : Enclosure} {inside cs : List Char} (h : Inside e inside)
    (hlength : inside.length < cs.length)
    (hfront : ∀ outer rest, skipFront outer (cs ++ rest) = enter e outer (inside ++ rest)) :
    Skipped cs := by
  obtain ⟨k, hk, hskipped⟩ := h.skipped
  refine ⟨k, by omega, ?_⟩
  intro n outer rest _
  rw [hfront, hskipped]

theorem word_append (w rest : List Char) : word w (w ++ rest) = .ok rest := by
  induction w with
  | nil => rfl
  | cons c w ih => rw [List.cons_append, word, if_pos rfl, ih]

theorem Quoted.exists_body {letters : Option (List Char)} {cs : List Char} (h : Quoted letters cs) :
    ∃ body, Body body ∧ cs = '"' :: (body ++ ['"']) := by
  obtain ⟨body, rfl, hbody⟩ := h
  cases letters with
  | none => exact ⟨body, hbody.1, rfl⟩
  | some letters => exact ⟨body, hbody.body, rfl⟩

theorem Token.ne_nil {c : Char} {token cs : List Char} (h : Token (c :: token) cs) : cs ≠ [] := by
  obtain ⟨blank, -, rfl⟩ := h
  simp

theorem Numeral.skipped {numeral cs : List Char} (h : Numeral numeral) (htoken : Token numeral cs) :
    Skipped cs := by
  obtain ⟨c, bare, rfl, hc⟩ := h.opens
  have hblank : isBlank c = false := (ne_of_isDigit hc).1
  refine Skipped.of_front htoken.ne_nil ?_
  intro outer rest hrest
  have hskip := skipNumber_append h hrest
  rw [skipFront, htoken.skipBlank hblank]
  split
  · next heq => exact absurd heq (List.cons_ne_nil _ _)
  iterate 6 next heq => exact absurd ((List.cons.inj heq).1 ▸ hc) (by decide)
  next heq =>
    obtain ⟨rfl, rfl⟩ := List.cons.inj heq
    rw [if_pos hc, ← List.cons_append, hskip, ok_bind]

theorem Tree.Written.element {t : Tree} {cs : List Char} (h : t.Written cs)
    (hskipped : Skipped cs) : Element .list cs := by
  constructor
  · intro rest
    obtain ⟨c, bare, hc, htoken, -⟩ := h.exists_bare
    exact ⟨c, _, htoken.skipBlank hc.ne.1 rest, hc.ne.2.2.1⟩
  · obtain ⟨k, hk, hskipped⟩ := hskipped
    refine ⟨k, hk, ?_⟩
    intro n outer rest hrest
    rw [← hskipped n _ rest hrest, skipWithin, skipKey, ok_bind]
    rfl

theorem KeyWritten.element {key : Option (List Char)} {front item : List Char}
    (h : KeyWritten key front) (hskipped : Skipped item) : Element .record (front ++ item) := by
  obtain ⟨quoted, text, colon, hquoted, htext, hcolon, rfl⟩ := h
  obtain ⟨body, hbody, rfl⟩ := hquoted.exists_body
  constructor
  · intro rest
    refine ⟨'"', body ++ ['"'] ++ (colon ++ item ++ rest), ?_, by decide⟩
    rw [List.append_assoc, List.append_assoc, htext.skipBlank rfl]
    simp
  · obtain ⟨k, hk, hskipped⟩ := hskipped
    refine ⟨k, by simp only [List.length_append]; omega, ?_⟩
    intro n outer rest hrest
    have hkey : skipKey .record (text ++ colon ++ item ++ rest) = .ok (item ++ rest) := by
      rw [List.append_assoc, List.append_assoc, skipKey, htext.skipBlank rfl]
      simp only [List.append_assoc, List.singleton_append]
      rw [skipString_of_body hbody, ok_bind, hcolon.skipBlank rfl]
      rfl
    rw [← hskipped n _ rest hrest, skipWithin, hkey, ok_bind]
    rfl

theorem tail_of_items {items : List Tree} {cs : List Char}
    (hitems : ∀ t ∈ items, ∀ cs, t.Written cs → Skipped cs) (h : MoreItemsWritten items cs) :
    Tail .list cs := by
  induction items generalizing cs with
  | nil => exact .stop h
  | cons t ts ih =>
    obtain ⟨item, more, hitem, hmore, htoken⟩ := h
    exact .next (hitem.element (hitems t List.mem_cons_self item hitem))
      (ih (fun u hu => hitems u (List.mem_cons_of_mem _ hu)) hmore) htoken

theorem tail_of_entries {entries : List (Option (List Char) × Tree)} {cs : List Char}
    (hentries : ∀ e ∈ entries, ∀ cs, e.2.Written cs → Skipped cs)
    (h : MoreEntriesWritten entries cs) : Tail .record cs := by
  induction entries generalizing cs with
  | nil => exact .stop h
  | cons e es ih =>
    obtain ⟨front, item, more, hfront, hitem, hmore, htoken⟩ := h
    rw [← List.append_assoc] at htoken
    exact .next (hfront.element (hentries e List.mem_cons_self item hitem))
      (ih (fun u hu => hentries u (List.mem_cons_of_mem _ hu)) hmore) htoken

theorem inside_of_items {items : List Tree} {cs : List Char}
    (hitems : ∀ t ∈ items, ∀ cs, t.Written cs → Skipped cs) (h : ItemsWritten items cs) :
    Inside .list cs := by
  cases items with
  | nil => exact .stop h
  | cons t ts =>
    obtain ⟨item, more, hitem, hmore, rfl⟩ := h
    exact .elements (hitem.element (hitems t List.mem_cons_self item hitem))
      (tail_of_items (fun u hu => hitems u (List.mem_cons_of_mem _ hu)) hmore)

theorem inside_of_entries {entries : List (Option (List Char) × Tree)} {cs : List Char}
    (hentries : ∀ e ∈ entries, ∀ cs, e.2.Written cs → Skipped cs) (h : EntriesWritten entries cs) :
    Inside .record cs := by
  cases entries with
  | nil => exact .stop h
  | cons e es =>
    obtain ⟨front, item, more, hfront, hitem, hmore, rfl⟩ := h
    rw [← List.append_assoc]
    exact .elements (hfront.element (hentries e List.mem_cons_self item hitem))
      (tail_of_entries (fun u hu => hentries u (List.mem_cons_of_mem _ hu)) hmore)

/-- Every text of the grammar is skipped up to its end, at any depth. -/
theorem Tree.Written.skipped {t : Tree} {cs : List Char} (h : t.Written cs) : Skipped cs := by
  induction t using Tree.induction generalizing cs with
  | null =>
    have h : Token ['n', 'u', 'l', 'l'] cs := h
    refine Skipped.of_front h.ne_nil fun outer rest _ => ?_
    rw [skipFront, h.skipBlank rfl]
    simp only [word_append, ok_bind]
  | truth b =>
    cases b with
    | true =>
      have h : Token ['t', 'r', 'u', 'e'] cs := h
      refine Skipped.of_front h.ne_nil fun outer rest _ => ?_
      rw [skipFront, h.skipBlank rfl]
      simp only [word_append, ok_bind]
    | false =>
      have h : Token ['f', 'a', 'l', 's', 'e'] cs := h
      refine Skipped.of_front h.ne_nil fun outer rest _ => ?_
      rw [skipFront, h.skipBlank rfl]
      simp only [word_append, ok_bind]
  | whole n => exact (numeral_decimal n).skipped h
  | real =>
    obtain ⟨numeral, hnumeral, -, htoken⟩ := h
    exact hnumeral.skipped htoken
  | text letters =>
    obtain ⟨quoted, hquoted, htoken⟩ := h
    obtain ⟨body, hbody, rfl⟩ := hquoted.exists_body
    refine Skipped.of_front htoken.ne_nil fun outer rest _ => ?_
    rw [skipFront, htoken.skipBlank rfl]
    simp only [List.append_assoc, List.singleton_append, skipString_of_body hbody, ok_bind]
  | list items ih =>
    obtain ⟨inside, hinside, htoken⟩ := h
    refine Skipped.of_inside (inside_of_items (fun t ht cs h => ih t ht h) hinside)
      htoken.length_le fun outer rest => ?_
    rw [skipFront, htoken.skipBlank rfl]
    rfl
  | record entries ih =>
    obtain ⟨inside, hinside, htoken⟩ := h
    refine Skipped.of_inside (inside_of_entries (fun e he cs h => ih e he h) hinside)
      htoken.length_le fun outer rest => ?_
    rw [skipFront, htoken.skipBlank rfl]
    rfl

/-- The reader of values nobody asks for finds the end of any text of the grammar. -/
theorem skipValue_append {t : Tree} {cs rest : List Char} (h : t.Written cs)
    (hrest : Follows rest) : skipValue (cs ++ rest) = .ok rest := by
  obtain ⟨k, hk, hskipped⟩ := h.skipped
  have hbound : (cs ++ rest).length - k + k = (cs ++ rest).length := by
    rw [List.length_append]
    omega
  have hskip := hskipped ((cs ++ rest).length - k) [] rest hrest
  rw [hbound] at hskip
  calc skipValue (cs ++ rest)
      = goOn (cs ++ rest).length (skipFront [] (cs ++ rest)) := rfl
    _ = goOn ((cs ++ rest).length - k) (leave [] rest) := hskip
    _ = .ok rest := by rw [leave, goOn, ok_bind, skipWithin]

end DiagnosticRelay.Json
