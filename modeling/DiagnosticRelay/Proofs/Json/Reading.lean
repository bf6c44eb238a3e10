import DiagnosticRelay.Json.Decoder
import DiagnosticRelay.Proofs.Json.Skipping
import Mathlib.Data.List.Forall2

/-!
# Reading typed values

What the readers of typed values do on the texts of the grammar. `Reads r Stands` says all of it at
once: on a text of a tree, `r` gives a value and stops behind the text exactly when the tree stands
for the value; on all other trees it gives an error. So a reader neither refuses a text that stands
for a value, nor makes up a value of one that does not.
-/

namespace DiagnosticRelay.Json

/-- The reader gives exactly the values that a tree stands for. -/
def Reads {α : Type} (r : Reader α) (Stands : α → Tree → Prop) : Prop :=
  ∀ t cs rest, t.Written cs → Follows rest →
    ∀ a rest', r (cs ++ rest) = .ok (a, rest') ↔ Stands a t ∧ rest' = rest

/-- Refusing never gives a value. -/
theorem refuse_ne_ok {α : Type} (expected : String) (cs : List Char) (a : α) :
    refuse expected cs ≠ .ok a := by
  intro h
  unfold refuse at h
  split at h
  · cases h
  iterate 4
    obtain ⟨x, -, h⟩ := bind_eq_ok_iff.mp h
    cases h
  · cases h
  · cases h
  · split_ifs at h
    obtain ⟨x, -, h⟩ := bind_eq_ok_iff.mp h
    cases h

/-! ## What the first character tells -/

theorem opensWith_null_iff {t : Tree} : t.OpensWith 'n' ↔ t = .null := by
  rcases t with _ | (_ | _) | _ | _ | _ | _ | _ <;> simp [Tree.OpensWith]

theorem opensWith_true_iff {t : Tree} : t.OpensWith 't' ↔ t = .truth true := by
  rcases t with _ | (_ | _) | _ | _ | _ | _ | _ <;> simp [Tree.OpensWith]

theorem opensWith_false_iff {t : Tree} : t.OpensWith 'f' ↔ t = .truth false := by
  rcases t with _ | (_ | _) | _ | _ | _ | _ | _ <;> simp [Tree.OpensWith]

theorem opensWith_quote_iff {t : Tree} : t.OpensWith '"' ↔ ∃ letters, t = .text letters := by
  rcases t with _ | (_ | _) | _ | _ | _ | _ | _ <;> simp [Tree.OpensWith]

theorem opensWith_bracket_iff {t : Tree} : t.OpensWith '[' ↔ ∃ items, t = .list items := by
  rcases t with _ | (_ | _) | _ | _ | _ | _ | _ <;> simp [Tree.OpensWith]

theorem opensWith_brace_iff {t : Tree} : t.OpensWith '\x7b' ↔ ∃ entries, t = .record entries := by
  rcases t with _ | (_ | _) | _ | _ | _ | _ | _ <;> simp [Tree.OpensWith]

theorem Tree.OpensWith.number {t : Tree} {c : Char} (h : t.OpensWith c)
    (hc : c = '-' ∨ c.isDigit = true) : t = .real ∨ ∃ n, t = .whole n := by
  cases t with
  | truth b => cases b <;> (obtain rfl := h; exact absurd hc (by decide))
  | whole n => exact .inr ⟨n, rfl⟩
  | real => exact .inl rfl
  | null | text _ | list _ | record _ => obtain rfl := h; exact absurd hc (by decide)

/-! ## Plain values -/

/-- A text without blanks in front is its token. -/
theorem Token.eq {c : Char} {token bare : List Char} (h : Token token (c :: bare))
    (hc : isBlank c = false) : token = c :: bare := by
  obtain ⟨blank, hblank, heq⟩ := h
  cases blank with
  | nil => exact heq.symm
  | cons b blank =>
    obtain ⟨rfl, -⟩ := List.cons.inj heq
    rw [isBlank_iff.mpr (hblank c List.mem_cons_self)] at hc
    cases hc

theorem reads_bool : Reads bool fun b t => t = .truth b := by
  intro t cs rest h hrest b rest'
  obtain ⟨c, bare, hc, htoken, hbare⟩ := h.exists_bare
  rw [bool, htoken.skipBlank hc.ne.1]
  split
  · next heq =>
    obtain ⟨rfl, rfl⟩ := List.cons.inj heq
    obtain rfl := opensWith_true_iff.mp hc
    cases Token.eq hbare rfl
    rw [word_append, ok_bind]
    simp [eq_comm]
  · next heq =>
    obtain ⟨rfl, rfl⟩ := List.cons.inj heq
    obtain rfl := opensWith_false_iff.mp hc
    cases Token.eq hbare rfl
    rw [word_append, ok_bind]
    simp [eq_comm]
  · next htrue hfalse =>
    constructor
    · intro hread
      exact absurd hread (refuse_ne_ok _ _ _)
    · rintro ⟨rfl, rfl⟩
      cases b with
      | true =>
        obtain rfl : c = 't' := hc
        exact absurd rfl (htrue _)
      | false =>
        obtain rfl : c = 'f' := hc
        exact absurd rfl (hfalse _)

/-- What a string between quotes spells are its letters, if it has any. -/
theorem Quoted.spells_iff {letters : Option (List Char)} {cs : List Char} (h : Quoted letters cs) :
    ∃ body, cs = '"' :: (body ++ ['"']) ∧ Body body ∧ ∀ ls, Spells body ls ↔ letters = some ls := by
  obtain ⟨body, rfl, hbody⟩ := h
  refine ⟨body, rfl, ?_⟩
  cases letters with
  | none => exact ⟨hbody.1, fun ls => iff_of_false (hbody.2 ls) nofun⟩
  | some letters =>
    refine ⟨hbody.body, fun ls => ⟨fun h => ?_, ?_⟩⟩
    · rw [hbody.unique h]
    · rintro ⟨⟩
      exact hbody

theorem reads_textAs (expected : String) :
    Reads (textAs expected) fun s t => t = .text (some s.toList) := by
  intro t cs rest h hrest s rest'
  obtain ⟨c, bare, hc, htoken, hbare⟩ := h.exists_bare
  rw [textAs, htoken.skipBlank hc.ne.1]
  split
  · next heq =>
    obtain ⟨rfl, rfl⟩ := List.cons.inj heq
    obtain ⟨letters, rfl⟩ := opensWith_quote_iff.mp hc
    obtain ⟨quoted, hquoted, htoken⟩ := hbare
    obtain ⟨body, rfl, hbody, hspells⟩ := hquoted.spells_iff
    cases Token.eq htoken rfl
    simp only [List.append_assoc, List.singleton_append, bind_eq_ok_iff, Prod.exists,
      string_eq_ok_iff hbody, hspells]
    constructor
    · rintro ⟨ls, _, ⟨rfl, rfl⟩, hread⟩
      cases hread
      simp
    · rintro ⟨hletters, rfl⟩
      exact ⟨s.toList, _, ⟨Tree.text.inj hletters, rfl⟩, by rw [String.ofList_toList]⟩
  · next hquote =>
    constructor
    · intro hread
      exact absurd hread (refuse_ne_ok _ _ _)
    · rintro ⟨rfl, rfl⟩
      obtain rfl : c = '"' := hc
      exact absurd rfl (hquote _)

/-- The whole numbers between the bounds are those that are read as whole and are between them. -/
theorem wholeWithin_of_number {c : Char} {low high n : Int} {expected : String}
    {cs bare rest rest' : List Char} (htoken : Token (c :: bare) cs)
    (hc : c = '-' ∨ c.isDigit = true) :
    wholeWithin low high expected (cs ++ rest) = .ok (n, rest') ↔
      number (c :: (bare ++ rest)) = .ok (.whole n, rest') ∧ low ≤ n ∧ n ≤ high := by
  rw [wholeWithin, htoken.skipBlank (ne_of_isDigit hc).1]
  simp only [if_pos hc]
  rw [bind_eq_ok_iff]
  constructor
  · rintro ⟨⟨m | _, mid⟩, hnumber, hread⟩
    · dsimp only at hread
      split_ifs at hread with hwithin
      cases hread
      exact ⟨hnumber, hwithin⟩
    · cases hread
  · rintro ⟨hnumber, hwithin⟩
    exact ⟨_, hnumber, if_pos hwithin⟩

theorem wholeWithin_of_refused {c : Char} {low high n : Int} {expected : String}
    {cs bare rest rest' : List Char} (htoken : Token (c :: bare) cs) (hblank : isBlank c = false)
    (hc : ¬ (c = '-' ∨ c.isDigit = true)) :
    wholeWithin low high expected (cs ++ rest) ≠ .ok (n, rest') := by
  rw [wholeWithin, htoken.skipBlank hblank]
  simp only [if_neg hc]
  exact refuse_ne_ok _ _ _

/-- Bounds that every word keeps make a reader of exactly the whole numbers between them. -/
theorem reads_wholeWithin (low high : Int) (hlow : -0x8000000000000000 ≤ low)
    (hhigh : high ≤ 0xFFFFFFFFFFFFFFFF) (expected : String) :
    Reads (wholeWithin low high expected) fun n t => t = .whole n ∧ low ≤ n ∧ n ≤ high := by
  intro t cs rest h hrest n rest'
  obtain ⟨c, bare, hc, htoken, hbare⟩ := h.exists_bare
  by_cases hnumber : c = '-' ∨ c.isDigit = true
  · rw [wholeWithin_of_number htoken hnumber, ← List.cons_append]
    obtain rfl | ⟨m, rfl⟩ := hc.number hnumber
    · obtain ⟨numeral, hnumeral, hreal, htoken⟩ := hbare
      obtain rfl := Token.eq htoken hc.ne.1
      refine iff_of_false ?_ nofun
      rintro ⟨hread, -⟩
      exact number_ne_whole hnumeral hreal hrest hread
    · have hbare : Token (decimal m) (c :: bare) := hbare
      rw [← Token.eq hbare hc.ne.1, number_decimal_eq_ok_iff hrest, FitsWord]
      constructor
      · rintro ⟨⟨-, rfl, rfl⟩, hwithin⟩
        exact ⟨⟨rfl, hwithin⟩, rfl⟩
      · rintro ⟨⟨heq, hwithin⟩, rfl⟩
        cases heq
        exact ⟨⟨⟨by omega, by omega⟩, rfl, rfl⟩, hwithin⟩
  · refine iff_of_false (wholeWithin_of_refused htoken hc.ne.1 hnumber) ?_
    rintro ⟨⟨rfl, -⟩, -⟩
    exact hnumber hc

/-- Reading something and making a value of it. -/
theorem Reads.map {α β : Type} {r : Reader α} {S : α → Tree → Prop} {T : β → Tree → Prop}
    (f : α → β) (h : Reads r S) (hST : ∀ b t, T b t ↔ ∃ a, S a t ∧ f a = b) :
    Reads (fun cs => do let (a, rest) ← r cs; .ok (f a, rest)) T := by
  intro t cs rest ht hrest b rest'
  rw [bind_eq_ok_iff, hST]
  constructor
  · rintro ⟨⟨a, mid⟩, hread, hb⟩
    cases hb
    obtain ⟨hS, rfl⟩ := (h t cs rest ht hrest a _).mp hread
    exact ⟨⟨a, hS, rfl⟩, rfl⟩
  · rintro ⟨⟨a, hS, rfl⟩, rfl⟩
    exact ⟨(a, rest'), (h t cs rest' ht hrest a rest').mpr ⟨hS, rfl⟩, rfl⟩

theorem reads_uint8 : Reads uint8 fun n t => t = .whole n.toNat := by
  refine (reads_wholeWithin 0 0xFF (by decide) (by decide) "u8").map
    (fun n => UInt8.ofNat n.toNat) ?_
  intro b t
  constructor
  · rintro rfl
    have hb := b.toNat_lt
    exact ⟨b.toNat, ⟨rfl, by omega, by omega⟩, by simp⟩
  · rintro ⟨n, ⟨rfl, hlow, hhigh⟩, rfl⟩
    have hsize : n.toNat < 2 ^ 8 := by omega
    rw [UInt8.toNat_ofNat_of_lt' hsize, Int.toNat_of_nonneg hlow]

theorem reads_uint32 : Reads uint32 fun n t => t = .whole n.toNat := by
  refine (reads_wholeWithin 0 0xFFFFFFFF (by decide) (by decide) "u32").map
    (fun n => UInt32.ofNat n.toNat) ?_
  intro b t
  constructor
  · rintro rfl
    have hb := b.toNat_lt
    exact ⟨b.toNat, ⟨rfl, by omega, by omega⟩, by simp⟩
  · rintro ⟨n, ⟨rfl, hlow, hhigh⟩, rfl⟩
    have hsize : n.toNat < 2 ^ 32 := by omega
    rw [UInt32.toNat_ofNat_of_lt' hsize, Int.toNat_of_nonneg hlow]

theorem reads_int64 : Reads int64 fun n t => t = .whole n.toInt := by
  refine (reads_wholeWithin (-0x8000000000000000) 0x7FFFFFFFFFFFFFFF (by decide) (by decide)
    "i64").map Int64.ofInt ?_
  intro b t
  constructor
  · rintro rfl
    have hlow := b.le_toInt
    have hhigh := b.toInt_lt
    exact ⟨b.toInt, ⟨rfl, by omega, by omega⟩, by simp⟩
  · rintro ⟨n, ⟨rfl, hlow, hhigh⟩, rfl⟩
    rw [Int64.toInt_ofInt_of_le (by omega) (by omega)]

/-- A tree stands for a value, or is null in its absence. -/
def OrNull {α : Type} (S : α → Tree → Prop) : Option α → Tree → Prop
  | none, t => t = .null
  | some a, t => S a t

/-- Null is read as no value, as long as it does not stand for a value itself. -/
theorem Reads.optional {α : Type} {r : Reader α} {S : α → Tree → Prop} (h : Reads r S)
    (hnull : ∀ a, ¬ S a .null) : Reads (optional r) (OrNull S) := by
  intro t cs rest ht hrest x rest'
  obtain ⟨c, bare, hc, htoken, hbare⟩ := ht.exists_bare
  rw [Json.optional, htoken.skipBlank hc.ne.1]
  split
  · next heq =>
    obtain ⟨rfl, rfl⟩ := List.cons.inj heq
    obtain rfl := opensWith_null_iff.mp hc
    cases Token.eq hbare rfl
    rw [word_append, ok_bind]
    cases x with
    | none => simp [OrNull, eq_comm]
    | some a => simp [OrNull, hnull]
  · next hother =>
    rw [← List.cons_append, bind_eq_ok_iff]
    constructor
    · rintro ⟨⟨a, mid⟩, hread, hx⟩
      cases hx
      exact (h t (c :: bare) rest hbare hrest a _).mp hread
    · rintro ⟨hx, rfl⟩
      cases x with
      | none =>
        subst hx
        obtain rfl : c = 'n' := hc
        exact absurd rfl (hother _)
      | some a => exact ⟨(a, rest'), (h t (c :: bare) rest' hbare hrest a _).mpr ⟨hx, rfl⟩, rfl⟩

/-! ## Lists -/

/-- The texts of items to come, where no item has been read yet or after one. -/
def ItemsToCome (first : Bool) (ts : List Tree) (cs : List Char) : Prop :=
  if first then ItemsWritten ts cs else MoreItemsWritten ts cs

theorem ItemsToCome.token {first : Bool} {cs : List Char} (h : ItemsToCome first [] cs) :
    Token [']'] cs := by
  cases first <;> exact h

theorem follows_of_moreItems {ts : List Tree} {cs : List Char} (h : MoreItemsWritten ts cs)
    (rest : List Char) : Follows (cs ++ rest) :=
  (tail_of_items (fun _ _ _ ht => ht.skipped) h).follows rest

theorem nextItem_of_nil {first : Bool} {cs : List Char} (h : ItemsToCome first [] cs)
    (rest : List Char) : nextItem first (cs ++ rest) = .ok none := by
  rw [nextItem, h.token.skipBlank rfl]
  rfl

theorem nextItem_true {c : Char} {cs cs' : List Char} (h : skipBlank cs = c :: cs') (hc : c ≠ ']') :
    nextItem true cs = .ok (some (c :: cs')) := by
  rw [nextItem, h]
  split
  · next heq => cases heq
  · next heq => exact absurd (List.cons.inj heq).1 hc
  · next heq => rw [if_pos rfl, heq]

theorem nextItem_false {c : Char} {cs mid cs' : List Char} (hcomma : skipBlank cs = ',' :: mid)
    (h : skipBlank mid = c :: cs') (hc : c ≠ ']') : nextItem false cs = .ok (some (c :: cs')) := by
  rw [nextItem, hcomma]
  split
  · next heq => cases heq
  · next heq => exact absurd (List.cons.inj heq).1 (by decide)
  · next heq =>
    obtain ⟨rfl, rfl⟩ := List.cons.inj heq
    rw [if_neg Bool.false_ne_true, if_pos rfl, h]
    split
    · next heq => cases heq
    · next heq => exact absurd (List.cons.inj heq).1 hc
    · rfl

/-- The next item is found without the blanks in front of it. -/
theorem nextItem_of_cons {first : Bool} {t : Tree} {ts : List Tree} {cs : List Char}
    (h : ItemsToCome first (t :: ts) cs) :
    ∃ item more, t.Written item ∧ ItemsToCome false ts more ∧ more.length < cs.length ∧
      ∀ rest, nextItem first (cs ++ rest) = .ok (some (item ++ (more ++ rest))) := by
  cases first with
  | true =>
    obtain ⟨item, more, hitem, hmore, rfl⟩ := h
    obtain ⟨c, bare, hc, htoken, hbare⟩ := hitem.exists_bare
    have hlength := htoken.length_le
    rw [List.length_cons] at hlength
    refine ⟨c :: bare, more, hbare, hmore, by rw [List.length_append]; omega, ?_⟩
    intro rest
    rw [List.append_assoc]
    exact nextItem_true (htoken.skipBlank hc.ne.1 (more ++ rest)) hc.ne.2.2.1
  | false =>
    obtain ⟨item, more, hitem, hmore, hcomma⟩ := h
    obtain ⟨c, bare, hc, htoken, hbare⟩ := hitem.exists_bare
    have hlength := hcomma.length_le
    simp only [List.length_cons, List.length_append] at hlength
    refine ⟨c :: bare, more, hbare, hmore, by omega, ?_⟩
    intro rest
    refine nextItem_false (hcomma.skipBlank rfl rest) ?_ hc.ne.2.2.1
    rw [List.append_assoc]
    exact htoken.skipBlank hc.ne.1 (more ++ rest)

/-- A list ends when all its items have been read and not before. -/
theorem endList_eq_ok_iff {first : Bool} {ts : List Tree} {cs rest rest' : List Char}
    (h : ItemsToCome first ts cs) : endList (cs ++ rest) = .ok rest' ↔ ts = [] ∧ rest' = rest := by
  cases ts with
  | nil =>
    rw [endList, h.token.skipBlank rfl]
    simp [eq_comm]
  | cons t ts =>
    refine iff_of_false ?_ nofun
    cases first with
    | true =>
      obtain ⟨item, more, hitem, hmore, rfl⟩ := h
      obtain ⟨c, bare, hc, htoken, hbare⟩ := hitem.exists_bare
      rw [endList, List.append_assoc, htoken.skipBlank hc.ne.1]
      split
      · nofun
      · next heq => exact absurd (List.cons.inj heq).1 hc.ne.2.2.1
      · next heq => exact absurd (List.cons.inj heq).1 hc.ne.2.1
      · nofun
    | false =>
      obtain ⟨item, more, hitem, hmore, hcomma⟩ := h
      rw [endList, hcomma.skipBlank rfl]
      simp only [List.append_assoc]
      split <;> nofun

/-- The items of a list are read one after the other, up to the closing bracket. -/
theorem itemsWithin_eq_ok_iff {α : Type} {r : Reader α} {S : α → Tree → Prop} (hr : Reads r S)
    {n : Nat} {first : Bool} {ts : List Tree} {cs : List Char} (h : ItemsToCome first ts cs)
    (hn : cs.length < n) :
    ∃ close first', ItemsToCome first' [] close ∧ ∀ rest as mid,
      itemsWithin r n first (cs ++ rest) = .ok (as, mid) ↔
        List.Forall₂ S as ts ∧ mid = close ++ rest := by
  induction ts generalizing n first cs with
  | nil =>
    obtain ⟨n, rfl⟩ : ∃ m, n = m + 1 := ⟨n - 1, by omega⟩
    refine ⟨cs, first, h, ?_⟩
    intro rest as mid
    rw [itemsWithin, nextItem_of_nil h, ok_bind]
    simp only [Except.ok.injEq, Prod.mk.injEq, List.forall₂_nil_right_iff, eq_comm]
  | cons t ts ih =>
    obtain ⟨n, rfl⟩ : ∃ m, n = m + 1 := ⟨n - 1, by omega⟩
    obtain ⟨item, more, hitem, hmore, hlength, hnext⟩ := nextItem_of_cons h
    have hmoreLength : more.length < n := by omega
    obtain ⟨close, first', hclose, hrest⟩ := ih hmore hmoreLength
    refine ⟨close, first', hclose, ?_⟩
    intro rest as mid
    have hread := hr t item (more ++ rest) hitem (follows_of_moreItems hmore rest)
    rw [itemsWithin, hnext, ok_bind]
    simp only [bind_eq_ok_iff, Prod.exists, hread]
    constructor
    · rintro ⟨a, _, ⟨ha, rfl⟩, as, _, hitems, hok⟩
      obtain ⟨has, rfl⟩ := (hrest rest as _).mp hitems
      cases hok
      exact ⟨.cons ha has, rfl⟩
    · rintro ⟨hall, rfl⟩
      cases hall with
      | @cons a _ as _ ha has =>
        exact ⟨a, _, ⟨ha, rfl⟩, as, _, (hrest rest as _).mpr ⟨has, rfl⟩, rfl⟩

/-- A tree is the list of what stands for the values. -/
def ListOf {α : Type} (S : α → Tree → Prop) (as : List α) (t : Tree) : Prop :=
  ∃ ts, t = .list ts ∧ List.Forall₂ S as ts

theorem Reads.list {α : Type} {r : Reader α} {S : α → Tree → Prop} (hr : Reads r S) :
    Reads (list r) (ListOf S) := by
  intro t cs rest h hrest as rest'
  obtain ⟨c, bare, hc, htoken, hbare⟩ := h.exists_bare
  rw [Json.list, htoken.skipBlank hc.ne.1]
  split
  · next heq =>
    obtain ⟨rfl, rfl⟩ := List.cons.inj heq
    obtain ⟨ts, rfl⟩ := opensWith_bracket_iff.mp hc
    obtain ⟨inside, hinside, htoken⟩ := hbare
    cases Token.eq htoken rfl
    have hinside : ItemsToCome true ts bare := hinside
    have hlength : bare.length < (bare ++ rest).length + 1 := by
      rw [List.length_append]
      omega
    obtain ⟨close, first', hclose, hitems⟩ := itemsWithin_eq_ok_iff hr hinside hlength
    simp only [bind_eq_ok_iff, Prod.exists]
    constructor
    · rintro ⟨as, _, hread, _, hend, hok⟩
      obtain ⟨has, rfl⟩ := (hitems rest as _).mp hread
      cases hok
      exact ⟨⟨ts, rfl, has⟩, ((endList_eq_ok_iff hclose).mp hend).2⟩
    · rintro ⟨⟨_, hlist, has⟩, rfl⟩
      obtain rfl := Tree.list.inj hlist
      exact ⟨as, _, (hitems _ as _).mpr ⟨has, rfl⟩, _, (endList_eq_ok_iff hclose).mpr ⟨rfl, rfl⟩,
        rfl⟩
  · next hother =>
    refine iff_of_false (refuse_ne_ok _ _ _) ?_
    rintro ⟨⟨ts, rfl, -⟩, -⟩
    obtain rfl : c = '[' := hc
    exact hother _ rfl

/-! ## Whole texts -/

theorem Blank.follows {blank : List Char} (h : Blank blank) : Follows blank := by
  cases blank with
  | nil => exact follows_nil
  | cons b blank =>
    refine follows_cons ?_ blank
    have hb := h b List.mem_cons_self
    simp only [List.mem_cons]
    tauto

/-- A text that says a tree is decoded to exactly the values that the tree stands for. -/
theorem Reads.decode_eq_ok_iff {α : Type} {r : Reader α} {S : α → Tree → Prop} (hr : Reads r S)
    {t : Tree} {text : String} (h : t.Says text) {a : α} : decode r text = .ok a ↔ S a t := by
  obtain ⟨cs, blank, hcs, hblank, htext⟩ := h
  have hread := hr t cs blank hcs hblank.follows
  have hend : skipBlank blank = [] := by
    have hskip := skipBlank_append hblank []
    rwa [List.append_nil] at hskip
  rw [decode, htext, bind_eq_ok_iff]
  constructor
  · rintro ⟨⟨b, rest⟩, hok, hdecode⟩
    obtain ⟨hb, rfl⟩ := (hread b rest).mp hok
    simp only [hend] at hdecode
    cases hdecode
    exact hb
  · intro ha
    refine ⟨(a, blank), (hread a blank).mpr ⟨ha, rfl⟩, ?_⟩
    simp only [hend]

end DiagnosticRelay.Json
