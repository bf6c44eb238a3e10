import DiagnosticRelay.Proofs.Json.Reading
import Mathlib.Data.List.Nodup

/-!
# Reading records

Which trees a record is written as, said of its members alone: under which key each of them stands,
which trees stand for its value, and whether the record may lack it. `Renders` knows both notations
of a record, and `Flawed` the faults a record of the right notation may have. A record's shape reads
exactly the trees that render it, when its fields are kept apart while it is read (`Lawful`).
-/

namespace DiagnosticRelay.Json

/-! ## The trees of a record -/

/-- A member of a record, with the value that it has. -/
structure Member where
  key : String
  /-- Whether a tree stands for the value. -/
  Stands : Tree → Prop
  /-- Whether the value is what a record without this member has. -/
  MayLack : Prop

/-- The values of a key in a record. -/
def valuesOf (key : String) (entries : List (Option (List Char) × Tree)) : List Tree :=
  entries.filterMap fun e => if e.1 = some key.toList then some e.2 else none

/-- The items of a list stand for the members in order. At the end of the list there may be none for
members that a record may lack. -/
def InOrder : List Member → List Tree → Prop
  | [], items => items = []
  | m :: ms, [] => m.MayLack ∧ InOrder ms []
  | m :: ms, t :: ts => m.Stands t ∧ InOrder ms ts

/-- The values of a member's key are one that stands for it, or none when it may lack. -/
def Member.StandsIn (m : Member) (values : List Tree) : Prop :=
  match values with
  | [] => m.MayLack
  | [t] => m.Stands t
  | _ :: _ :: _ => False

/-- A tree is a record of the members: an object with their keys once each and in any order, among
any other keys, or the list of their values. -/
def Renders (members : List Member) : Tree → Prop
  | .record entries =>
    (∀ e ∈ entries, e.1 ≠ none) ∧ ∀ m ∈ members, m.StandsIn (valuesOf m.key entries)
  | .list items => InOrder members items
  | _ => False

/-! ## Faults -/

/-- A whole number that the word between the bounds does not hold. -/
def OutOfRange (low high : Int) (t : Tree) : Prop := ∃ n, t = .whole n ∧ ¬ (low ≤ n ∧ n ≤ high)

/-- A list with an item at fault. -/
def AnyFlawed (F : Tree → Prop) (t : Tree) : Prop := ∃ ts, t = .list ts ∧ ∃ u ∈ ts, F u

/-- A member of all records of a kind. -/
structure Part where
  key : String
  /-- Whether every record has it. -/
  IsRequired : Prop
  /-- Whether a tree in its place is at fault. -/
  Flawed : Tree → Prop

/-- A record is at fault when a required key is missing, when the key of a member is repeated, or
when a member's value is at fault. -/
def Flawed (parts : List Part) : Tree → Prop
  | .record entries => ∃ part ∈ parts,
    part.IsRequired ∧ valuesOf part.key entries = [] ∨
      2 ≤ (valuesOf part.key entries).length ∨ ∃ t ∈ valuesOf part.key entries, part.Flawed t
  | .list items => ∃ place ∈ parts.zip items, place.1.Flawed place.2
  | _ => False

/-- What is at fault in a part's place stands for none of its members. -/
structure Part.Opposes (part : Part) (m : Member) : Prop where
  key : m.key = part.key
  required : part.IsRequired → ¬ m.MayLack
  flawed : ∀ t, part.Flawed t → ¬ m.Stands t

/-- A required member cannot be missing, and what stands for it is not at fault. -/
theorem opposes_required {key : String} {Stands F : Tree → Prop} (h : ∀ t, Stands t → ¬ F t) :
    Part.Opposes ⟨key, True, F⟩ ⟨key, Stands, False⟩ where
  key := rfl
  required _ := id
  flawed t hF hstands := h t hstands hF

/-- What stands for an optional member is not at fault. -/
theorem opposes_optional {key : String} {Stands F : Tree → Prop} {mayLack : Prop}
    (h : ∀ t, Stands t → ¬ F t) : Part.Opposes ⟨key, False, F⟩ ⟨key, Stands, mayLack⟩ where
  key := rfl
  required := False.elim
  flawed t hF hstands := h t hstands hF

theorem not_outOfRange {low high n : Int} (hlow : low ≤ n) (hhigh : n ≤ high) {t : Tree}
    (h : t = .whole n) : ¬ OutOfRange low high t := by
  rintro ⟨m, rfl, hm⟩
  cases h
  exact hm ⟨hlow, hhigh⟩

theorem not_outOfRange_uint32 (n : UInt32) {t : Tree} (h : t = .whole n.toNat) :
    ¬ OutOfRange 0 0xFFFFFFFF t := by
  have hn := n.toNat_lt
  exact not_outOfRange (by omega) (by omega) h

theorem not_outOfRange_int64 (n : Int64) {t : Tree} (h : t = .whole n.toInt) :
    ¬ OutOfRange (-0x8000000000000000) 0x7FFFFFFFFFFFFFFF t := by
  have hlow := n.le_toInt
  have hhigh := n.toInt_lt
  exact not_outOfRange (by omega) (by omega) h

/-- Everything on the left is related to something on the right. -/
theorem exists_of_forall₂ {α β : Type*} {R : α → β → Prop} {as : List α} {bs : List β}
    (h : List.Forall₂ R as bs) {a : α} (ha : a ∈ as) : ∃ b ∈ bs, R a b := by
  induction h with
  | nil => cases ha
  | @cons x y xs ys hxy _ ih =>
    cases ha with
    | head => exact ⟨y, List.mem_cons_self, hxy⟩
    | tail _ ha =>
      obtain ⟨b, hb, hab⟩ := ih ha
      exact ⟨b, List.mem_cons_of_mem _ hb, hab⟩

theorem ListOf.not_anyFlawed {α : Type} {S : α → Tree → Prop} {F : Tree → Prop}
    (hF : ∀ a t, S a t → ¬ F t) {as : List α} {t : Tree} (h : ListOf S as t) : ¬ AnyFlawed F t := by
  rintro ⟨_, hlist, u, hu, hflawed⟩
  obtain ⟨ts, rfl, hall⟩ := h
  obtain rfl := Tree.list.inj hlist
  obtain ⟨a, -, ha⟩ := exists_of_forall₂ hall.flip hu
  exact hF a u ha hflawed

theorem InOrder.not_flawed {parts : List Part} {members : List Member} {items : List Tree}
    (h : InOrder members items) (hparts : List.Forall₂ Part.Opposes parts members) :
    ∀ place ∈ parts.zip items, ¬ place.1.Flawed place.2 := by
  induction hparts generalizing items with
  | nil => simp
  | @cons part m parts members hpart _ ih =>
    cases items with
    | nil => simp
    | cons t ts =>
      obtain ⟨ht, hts⟩ := h
      simp only [List.zip_cons_cons, List.mem_cons, forall_eq_or_imp]
      exact ⟨fun hflawed => hpart.flawed t hflawed ht, ih hts⟩

/-- No record renders as a tree at fault. -/
theorem Renders.not_flawed {parts : List Part} {members : List Member} {t : Tree}
    (h : Renders members t) (hparts : List.Forall₂ Part.Opposes parts members) :
    ¬ Flawed parts t := by
  cases t with
  | record entries =>
    rintro ⟨part, hpart, hflaw⟩
    obtain ⟨m, hm, hopposes⟩ := exists_of_forall₂ hparts hpart
    have hvalues := h.2 m hm
    rw [hopposes.key] at hvalues
    obtain ⟨hrequired, hnone⟩ | hmany | ⟨t, ht, hflaw⟩ := hflaw
    · rw [hnone] at hvalues
      exact hopposes.required hrequired hvalues
    · match hvalue : valuesOf part.key entries with
      | [] | [_] => simp [hvalue] at hmany
      | _ :: _ :: _ => rwa [hvalue] at hvalues
    · match hvalue : valuesOf part.key entries with
      | [] => simp [hvalue] at ht
      | [u] =>
        rw [hvalue] at hvalues ht
        rw [List.mem_singleton.mp ht] at hflaw
        exact hopposes.flawed u hflaw hvalues
      | _ :: _ :: _ => rwa [hvalue] at hvalues
  | list items =>
    rintro ⟨place, hplace, hflaw⟩
    exact InOrder.not_flawed h hparts place hplace hflaw
  | null | truth _ | whole _ | real | text _ => exact id

/-! ## Slots -/

/-- A place for the value of one member in what has been read of a record. -/
structure Slot (π α : Type) where
  key : String
  Value : Type
  get : π → Option Value
  put : π → Value → π
  reader : Reader Value
  Stands : Value → Tree → Prop
  value : α → Value
  /-- The value in a record that lacks the member. -/
  default? : Option Value

namespace Slot

variable {π α : Type}

/-- The field that is read into the slot. -/
def field (u : Slot π α) : Field π where
  key := u.key
  isRead p := (u.get p).isSome
  read p cs := do
    let (x, rest) ← u.reader cs
    .ok (u.put p x, rest)
  hasDefault := u.default?.isSome

/-- A record that lacks the member has the value of `a`. -/
def MayLack (u : Slot π α) (a : α) : Prop :=
  match u.default? with
  | some d => u.value a = d
  | none => False

/-- The slot's member in a record. -/
def member (u : Slot π α) (a : α) : Member := ⟨u.key, u.Stands (u.value a), u.MayLack a⟩

/-- What has been read agrees with a record. -/
def Agrees (u : Slot π α) (a : α) (p : π) : Prop :=
  match u.get p with
  | some x => u.value a = x
  | none => u.MayLack a

end Slot

/-- The slots of a shape are kept apart, and a record is finished when they agree with it. -/
structure Lawful {π α : Type} (s : Shape π α) (slots : List (Slot π α)) : Prop where
  fields : s.fields = slots.map Slot.field
  reads : ∀ u ∈ slots, Reads u.reader u.Stands
  distinct : (slots.map Slot.key).Nodup
  get_put : ∀ u ∈ slots, ∀ p x, u.get (u.put p x) = some x
  get_put_of_ne : ∀ u ∈ slots, ∀ v ∈ slots, u.key ≠ v.key → ∀ p x, v.get (u.put p x) = v.get p
  start : ∀ u ∈ slots, u.get s.start = none
  finish : ∀ p a, s.finish p = .ok a ↔ ∀ u ∈ slots, u.Agrees a p

/-! ## Objects -/

/-- The texts of entries to come, where no entry has been read yet or after one. -/
def EntriesToCome (first : Bool) (es : List (Option (List Char) × Tree)) (cs : List Char) : Prop :=
  if first then EntriesWritten es cs else MoreEntriesWritten es cs

theorem EntriesToCome.token {first : Bool} {cs : List Char} (h : EntriesToCome first [] cs) :
    Token ['\x7d'] cs := by
  cases first <;> exact h

theorem follows_of_moreEntries {es : List (Option (List Char) × Tree)} {cs : List Char}
    (h : MoreEntriesWritten es cs) (rest : List Char) : Follows (cs ++ rest) :=
  (tail_of_entries (fun _ _ _ ht => ht.skipped) h).follows rest

theorem nextKey_of_nil {first : Bool} {cs : List Char} (h : EntriesToCome first [] cs)
    (rest : List Char) : Shape.nextKey first (cs ++ rest) = .ok none := by
  rw [Shape.nextKey, h.token.skipBlank rfl]
  rfl

theorem nextKey_false {cs mid cs' : List Char} (hcomma : skipBlank cs = ',' :: mid)
    (h : skipBlank mid = '"' :: cs') : Shape.nextKey false cs = .ok (some cs') := by
  simp [Shape.nextKey, hcomma, h]

/-- The next key is found behind its opening quote. -/
theorem nextKey_of_cons {first : Bool} {key : Option (List Char)} {t : Tree}
    {es : List (Option (List Char) × Tree)} {cs : List Char}
    (h : EntriesToCome first ((key, t) :: es) cs) :
    ∃ body colon item more, Body body ∧ (∀ ls, Spells body ls ↔ key = some ls) ∧
      Token [':'] colon ∧ t.Written item ∧ EntriesToCome false es more ∧ more.length < cs.length ∧
      ∀ rest, Shape.nextKey first (cs ++ rest) =
        .ok (some (body ++ '"' :: (colon ++ (item ++ (more ++ rest))))) := by
  cases first with
  | true =>
    obtain ⟨front, item, more, ⟨quoted, text, colon, hquoted, htext, hcolon, rfl⟩, hitem, hmore,
      rfl⟩ := h
    obtain ⟨body, rfl, hbody, hspells⟩ := hquoted.spells_iff
    have hlength := htext.length_le
    refine ⟨body, colon, item, more, hbody, hspells, hcolon, hitem, hmore, ?_, ?_⟩
    · simp only [List.length_append, List.length_cons] at hlength ⊢
      omega
    · intro rest
      rw [Shape.nextKey, List.append_assoc, List.append_assoc, htext.skipBlank rfl]
      simp
  | false =>
    obtain ⟨front, item, more, ⟨quoted, text, colon, hquoted, htext, hcolon, rfl⟩, hitem, hmore,
      hcomma⟩ := h
    obtain ⟨body, rfl, hbody, hspells⟩ := hquoted.spells_iff
    have hlength := hcomma.length_le
    refine ⟨body, colon, item, more, hbody, hspells, hcolon, hitem, hmore, ?_, ?_⟩
    · simp only [List.length_append, List.length_cons] at hlength
      omega
    · intro rest
      refine nextKey_false (hcomma.skipBlank rfl rest) ?_
      simp only [List.append_assoc]
      rw [htext.skipBlank rfl]
      simp

theorem colon_append {cs : List Char} (h : Token [':'] cs) (rest : List Char) :
    Shape.colon (cs ++ rest) = .ok rest := by
  rw [Shape.colon, h.skipBlank rfl]
  rfl

theorem endObject_append {first : Bool} {cs : List Char} (h : EntriesToCome first [] cs)
    (rest : List Char) : Shape.endObject (cs ++ rest) = .ok rest := by
  rw [Shape.endObject, h.token.skipBlank rfl]
  rfl

variable {π α : Type}

/-- What has been read after an object's entries: the values of known keys, none of them twice. -/
inductive Fills (slots : List (Slot π α)) :
    π → List (Option (List Char) × Tree) → π → Prop where
  | nil (p : π) : Fills slots p [] p
  | known {u : Slot π α} (hu : u ∈ slots) {key : List Char} (hkey : u.key.toList = key) {p q : π}
      (hnew : u.get p = none) {x : u.Value} {t : Tree} (hx : u.Stands x t)
      {es : List (Option (List Char) × Tree)} (h : Fills slots (u.put p x) es q) :
      Fills slots p ((some key, t) :: es) q
  | unknown {key : List Char} (hkey : ∀ u ∈ slots, u.key.toList ≠ key) {p q : π} {t : Tree}
      {es : List (Option (List Char) × Tree)} (h : Fills slots p es q) :
      Fills slots p ((some key, t) :: es) q

theorem key_inj {slots : List (Slot π α)} (h : (slots.map Slot.key).Nodup) {u v : Slot π α}
    (hu : u ∈ slots) (hv : v ∈ slots) (huv : u.key = v.key) : u = v :=
  List.inj_on_of_nodup_map h hu hv huv

section

variable {s : Shape π α} {slots : List (Slot π α)} (hs : Lawful s slots)
include hs

/-- The value of a known key is read into its slot, if that is still empty. -/
theorem entry_of_known {u : Slot π α} (hu : u ∈ slots) {t : Tree} {colon item rest : List Char}
    (hcolon : Token [':'] colon) (hitem : t.Written item) (hrest : Follows rest) (p q : π)
    (rest' : List Char) :
    s.entry p u.key.toList (colon ++ (item ++ rest)) = .ok (q, rest') ↔
      u.get p = none ∧ (∃ x, u.Stands x t ∧ q = u.put p x) ∧ rest' = rest := by
  have hfind : s.fields.find? (fun f => f.key.toList = u.key.toList) = some u.field := by
    rw [hs.fields, List.find?_map]
    cases hfirst : slots.find? ((fun f => decide (f.key.toList = u.key.toList)) ∘ Slot.field) with
    | none =>
      have hnone := List.find?_eq_none.mp hfirst u hu
      simp [Slot.field] at hnone
    | some v =>
      have hkey : v.key = u.key := by
        have hsome := List.find?_some hfirst
        exact String.toList_inj.mp (of_decide_eq_true hsome)
      rw [Option.map_some, key_inj hs.distinct (List.mem_of_find?_eq_some hfirst) hu hkey]
  rw [Shape.entry, hfind]
  simp only [Slot.field, colon_append hcolon, ok_bind]
  cases hget : u.get p with
  | some x => simp
  | none =>
    simp only [Option.isSome_none, Bool.false_eq_true, if_false, bind_eq_ok_iff, Prod.exists,
      hs.reads u hu t item rest hitem hrest]
    constructor
    · rintro ⟨x, _, ⟨hx, rfl⟩, hok⟩
      cases hok
      exact ⟨trivial, ⟨x, hx, rfl⟩, rfl⟩
    · rintro ⟨-, ⟨x, hx, rfl⟩, rfl⟩
      exact ⟨x, _, ⟨hx, rfl⟩, rfl⟩

/-- The value of an unknown key is skipped. -/
theorem entry_of_unknown {key : List Char} (hkey : ∀ u ∈ slots, u.key.toList ≠ key) {t : Tree}
    {colon item rest : List Char} (hcolon : Token [':'] colon) (hitem : t.Written item)
    (hrest : Follows rest) (p : π) :
    s.entry p key (colon ++ (item ++ rest)) = .ok (p, rest) := by
  have hfind : s.fields.find? (fun f => f.key.toList = key) = none := by
    rw [hs.fields, List.find?_eq_none]
    simp only [List.mem_map, decide_eq_true_eq, forall_exists_index, and_imp,
      forall_apply_eq_imp_iff₂]
    exact hkey
  rw [Shape.entry, hfind]
  simp only [colon_append hcolon, ok_bind, skipValue_append hitem hrest]

omit hs in
theorem fills_unknown_iff {key : List Char} (hkey : ∀ u ∈ slots, u.key.toList ≠ key) {p q : π}
    {t : Tree} {es : List (Option (List Char) × Tree)} :
    Fills slots p ((some key, t) :: es) q ↔ Fills slots p es q := by
  refine ⟨?_, .unknown hkey⟩
  intro h
  cases h with
  | known hu heq => exact absurd heq (hkey _ hu)
  | unknown _ h => exact h

theorem fills_known_iff {u : Slot π α} (hu : u ∈ slots) {p q : π} {t : Tree}
    {es : List (Option (List Char) × Tree)} :
    Fills slots p ((some u.key.toList, t) :: es) q ↔
      u.get p = none ∧ ∃ x, u.Stands x t ∧ Fills slots (u.put p x) es q := by
  constructor
  · intro h
    cases h with
    | @known v hv _ hkey _ _ hnew x _ hx _ h =>
      obtain rfl := key_inj hs.distinct hv hu (String.toList_inj.mp hkey)
      exact ⟨hnew, x, hx, h⟩
    | unknown hkey => exact absurd rfl (hkey u hu)
  · rintro ⟨hnew, x, hx, h⟩
    exact .known hu rfl hnew hx h

/-- The entries of an object are read one after the other, up to the closing brace. -/
theorem entriesWithin_eq_ok_iff {n : Nat} {first : Bool} {es : List (Option (List Char) × Tree)}
    {cs : List Char} (h : EntriesToCome first es cs) (hn : cs.length < n) :
    ∃ close first', EntriesToCome first' [] close ∧ ∀ p rest q mid,
      s.entriesWithin n first p (cs ++ rest) = .ok (q, mid) ↔
        Fills slots p es q ∧ mid = close ++ rest := by
  induction es generalizing n first cs with
  | nil =>
    obtain ⟨n, rfl⟩ : ∃ m, n = m + 1 := ⟨n - 1, by omega⟩
    refine ⟨cs, first, h, ?_⟩
    intro p rest q mid
    rw [Shape.entriesWithin, nextKey_of_nil h, ok_bind]
    constructor
    · intro hok
      cases hok
      exact ⟨.nil p, rfl⟩
    · rintro ⟨⟨⟩, rfl⟩
      rfl
  | cons e es ih =>
    obtain ⟨key, t⟩ := e
    obtain ⟨n, rfl⟩ : ∃ m, n = m + 1 := ⟨n - 1, by omega⟩
    obtain ⟨body, colon, item, more, hbody, hspells, hcolon, hitem, hmore, hlength, hnext⟩ :=
      nextKey_of_cons h
    have hmoreLength : more.length < n := by omega
    obtain ⟨close, first', hclose, hrest⟩ := ih hmore hmoreLength
    refine ⟨close, first', hclose, ?_⟩
    intro p rest q mid
    have hfollows := follows_of_moreEntries hmore rest
    rw [Shape.entriesWithin, hnext, ok_bind]
    cases key with
    | none =>
      refine iff_of_false ?_ nofun
      intro hread
      obtain ⟨⟨ls, _⟩, hstring, -⟩ := bind_eq_ok_iff.mp hread
      exact absurd ((hspells ls).mp ((string_eq_ok_iff hbody).mp hstring).1) nofun
    | some key =>
      have hstring := (string_eq_ok_iff hbody).mpr
        ⟨(hspells key).mpr rfl, Eq.refl (colon ++ (item ++ (more ++ rest)))⟩
      simp only [hstring, ok_bind]
      by_cases hkey : ∃ u ∈ slots, u.key.toList = key
      · obtain ⟨u, hu, rfl⟩ := hkey
        simp only [bind_eq_ok_iff, Prod.exists, entry_of_known hs hu hcolon hitem hfollows,
          fills_known_iff hs hu]
        constructor
        · rintro ⟨_, _, ⟨hnew, ⟨x, hx, rfl⟩, rfl⟩, hread⟩
          obtain ⟨hfills, rfl⟩ := (hrest _ rest q mid).mp hread
          exact ⟨⟨hnew, x, hx, hfills⟩, rfl⟩
        · rintro ⟨⟨hnew, x, hx, hfills⟩, rfl⟩
          exact ⟨_, _, ⟨hnew, ⟨x, hx, rfl⟩, rfl⟩, (hrest _ _ _ _).mpr ⟨hfills, rfl⟩⟩
      · simp only [not_exists, not_and] at hkey
        rw [entry_of_unknown hs hkey hcolon hitem hfollows, ok_bind, hrest, fills_unknown_iff hkey]

/-- The entries still to be read leave a slot with the value of a record: they have none for its key
when it is filled, and one when it is not, unless the record may lack the member. -/
def Slot.Due (u : Slot π α) (a : α) (p : π) (values : List Tree) : Prop :=
  match u.get p with
  | some x => u.value a = x ∧ values = []
  | none => (u.member a).StandsIn values

omit hs in
theorem Slot.due_nil_iff {u : Slot π α} {a : α} {p : π} : u.Due a p [] ↔ u.Agrees a p := by
  unfold Slot.Due Slot.Agrees
  cases u.get p with
  | none => rfl
  | some x => simp

omit hs in
theorem Slot.due_cons_iff {u : Slot π α} {a : α} {p : π} {t : Tree} {ts : List Tree} :
    u.Due a p (t :: ts) ↔ u.get p = none ∧ u.Stands (u.value a) t ∧ ts = [] := by
  unfold Slot.Due
  cases u.get p with
  | none => cases ts <;> simp [Member.StandsIn, Slot.member]
  | some x => simp

omit hs in
theorem valuesOf_cons_self (key : String) (t : Tree) (es : List (Option (List Char) × Tree)) :
    valuesOf key ((some key.toList, t) :: es) = t :: valuesOf key es := by
  simp [valuesOf]

omit hs in
theorem valuesOf_cons_of_ne {key : String} {key' : List Char} (h : key.toList ≠ key') (t : Tree)
    (es : List (Option (List Char) × Tree)) :
    valuesOf key ((some key', t) :: es) = valuesOf key es := by
  simp [valuesOf, h.symm]

/-- What is due before a known entry is its own value, and what is due after it is the rest. -/
theorem due_known_iff (a : α) {u : Slot π α} (hu : u ∈ slots) {p : π} {t : Tree}
    {es : List (Option (List Char) × Tree)} :
    (∀ v ∈ slots, v.Due a p (valuesOf v.key ((some u.key.toList, t) :: es))) ↔
      u.get p = none ∧ ∃ x, u.Stands x t ∧
        ∀ v ∈ slots, v.Due a (u.put p x) (valuesOf v.key es) := by
  -- Other slots keep what they have and have no value in this entry.
  have hother (x : u.Value) {v : Slot π α} (hv : v ∈ slots) (hne : v ≠ u) :
      v.Due a p (valuesOf v.key ((some u.key.toList, t) :: es)) ↔
        v.Due a (u.put p x) (valuesOf v.key es) := by
    have hkey : u.key ≠ v.key := fun heq => hne (key_inj hs.distinct hv hu heq.symm)
    rw [valuesOf_cons_of_ne (fun heq => hkey (String.toList_inj.mp heq).symm), Slot.Due, Slot.Due,
      hs.get_put_of_ne u hu v hv hkey]
  constructor
  · intro hdue
    have hself := hdue u hu
    rw [valuesOf_cons_self, Slot.due_cons_iff] at hself
    obtain ⟨hnew, hstands, hnone⟩ := hself
    refine ⟨hnew, u.value a, hstands, fun v hv => ?_⟩
    by_cases hvu : v = u
    · subst hvu
      rw [hnone, Slot.due_nil_iff, Slot.Agrees, hs.get_put v hu]
    · exact (hother _ hv hvu).mp (hdue v hv)
  · rintro ⟨hnew, x, hstands, hdue⟩ v hv
    by_cases hvu : v = u
    · subst hvu
      have hself := hdue v hu
      rw [Slot.Due, hs.get_put v hu] at hself
      obtain ⟨rfl, hnone⟩ := hself
      rw [valuesOf_cons_self, Slot.due_cons_iff]
      exact ⟨hnew, hstands, hnone⟩
    · exact (hother x hv hvu).mpr (hdue v hv)

/-- Entries can be read into what agrees with a record exactly when every slot's value is due in
them. -/
theorem exists_fills_iff (a : α) {p : π} {es : List (Option (List Char) × Tree)} :
    (∃ q, Fills slots p es q ∧ ∀ u ∈ slots, u.Agrees a q) ↔
      (∀ e ∈ es, e.1 ≠ none) ∧ ∀ u ∈ slots, u.Due a p (valuesOf u.key es) := by
  induction es generalizing p with
  | nil =>
    simp only [List.not_mem_nil, false_imp_iff, implies_true, true_and]
    constructor
    · rintro ⟨_, ⟨⟩, hagrees⟩ u hu
      exact Slot.due_nil_iff.mpr (hagrees u hu)
    · intro hdue
      exact ⟨p, .nil p, fun u hu => Slot.due_nil_iff.mp (hdue u hu)⟩
  | cons e es ih =>
    obtain ⟨key | key, t⟩ := e
    · refine iff_of_false ?_ fun h => h.1 _ List.mem_cons_self rfl
      rintro ⟨q, ⟨⟩, -⟩
    have hkeys : (∀ e ∈ (some key, t) :: es, e.1 ≠ none) ↔ ∀ e ∈ es, e.1 ≠ none := by simp
    rw [hkeys]
    by_cases hkey : ∃ u ∈ slots, u.key.toList = key
    · obtain ⟨u, hu, rfl⟩ := hkey
      rw [due_known_iff hs a hu]
      constructor
      · rintro ⟨q, hfills, hagrees⟩
        obtain ⟨hnew, x, hx, hfills⟩ := (fills_known_iff hs hu).mp hfills
        obtain ⟨hes, hdue⟩ := ih.mp ⟨q, hfills, hagrees⟩
        exact ⟨hes, hnew, x, hx, hdue⟩
      · rintro ⟨hes, hnew, x, hx, hdue⟩
        obtain ⟨q, hfills, hagrees⟩ := ih.mpr ⟨hes, hdue⟩
        exact ⟨q, (fills_known_iff hs hu).mpr ⟨hnew, x, hx, hfills⟩, hagrees⟩
    · simp only [not_exists, not_and] at hkey
      simp only [fills_unknown_iff hkey, ih]
      refine and_congr_right fun _ => forall₂_congr fun u hu => ?_
      rw [valuesOf_cons_of_ne (hkey u hu)]

/-! ## Lists of values -/

/-- Filling a slot leaves the slots in front of it and behind it as they are. -/
theorem get_put_of_split {u : Slot π α} {done rest : List (Slot π α)}
    (hslots : slots = done ++ u :: rest) (p : π) (x : u.Value) :
    (∀ v ∈ done, v.get (u.put p x) = v.get p) ∧ ∀ v ∈ rest, v.get (u.put p x) = v.get p := by
  have hdistinct := hs.distinct
  rw [hslots, List.map_append, List.map_cons, List.nodup_append, List.nodup_cons] at hdistinct
  obtain ⟨-, ⟨hrest, -⟩, hdone⟩ := hdistinct
  have hu : u ∈ slots := by simp [hslots]
  constructor
  · intro v hv
    have hkey : u.key ≠ v.key :=
      (hdone v.key (List.mem_map_of_mem hv) u.key List.mem_cons_self).symm
    exact hs.get_put_of_ne u hu v (by simp [hslots, hv]) hkey p x
  · intro v hv
    have hkey : u.key ≠ v.key := fun heq => hrest (heq ▸ List.mem_map_of_mem hv)
    exact hs.get_put_of_ne u hu v (by simp [hslots, hv]) hkey p x

omit hs in
theorem agrees_concat_iff (a : α) {done : List (Slot π α)} {u : Slot π α} {p : π} :
    (∀ v ∈ done ++ [u], v.Agrees a p) ↔ (∀ v ∈ done, v.Agrees a p) ∧ u.Agrees a p := by
  simp [or_imp, forall_and]

/-- When the next slot is filled, the slots up to it agree with a record if those in front did and
the record has the value. -/
theorem agrees_put_iff (a : α) {u : Slot π α} {done rest : List (Slot π α)}
    (hslots : slots = done ++ u :: rest) {p : π} {x : u.Value} :
    (∀ v ∈ done ++ [u], v.Agrees a (u.put p x)) ↔
      (∀ v ∈ done, v.Agrees a p) ∧ u.value a = x := by
  have hu : u ∈ slots := by simp [hslots]
  rw [agrees_concat_iff]
  refine and_congr (forall₂_congr fun v hv => ?_) ?_
  · rw [Slot.Agrees, Slot.Agrees, (get_put_of_split hs hslots p x).1 v hv]
  · rw [Slot.Agrees, hs.get_put u hu]

/-- A list of values is read into the slots in order. The slots of `rest` are still empty. -/
theorem positional_iff (a : α) {done rest : List (Slot π α)} (hslots : slots = done ++ rest)
    {index : Nat} {first : Bool} {p : π} (hempty : ∀ u ∈ rest, u.get p = none) {ts : List Tree}
    {cs tail tail' : List Char} (h : ItemsToCome first ts cs) :
    (∃ q mid, s.positional (rest.map Slot.field) index first p (cs ++ tail) = .ok (q, mid) ∧
        s.finish q = .ok a ∧ endList mid = .ok tail') ↔
      ((∀ u ∈ done, u.Agrees a p) ∧ InOrder (rest.map fun u => u.member a) ts) ∧ tail' = tail := by
  induction rest generalizing done index first p ts cs with
  | nil =>
    rw [List.append_nil] at hslots
    subst hslots
    simp only [List.map_nil, Shape.positional, InOrder]
    constructor
    · rintro ⟨q, mid, hok, hfinish, hend⟩
      cases hok
      obtain ⟨rfl, rfl⟩ := (endList_eq_ok_iff h).mp hend
      exact ⟨⟨(hs.finish p a).mp hfinish, rfl⟩, rfl⟩
    · rintro ⟨⟨hagrees, rfl⟩, rfl⟩
      exact ⟨p, _, rfl, (hs.finish p a).mpr hagrees, (endList_eq_ok_iff h).mpr ⟨rfl, rfl⟩⟩
  | cons u rest ih =>
    have hnext : slots = (done ++ [u]) ++ rest := by simp [hslots]
    have hnone : u.get p = none := hempty u List.mem_cons_self
    have hempty : ∀ v ∈ rest, v.get p = none := fun v hv => hempty v (List.mem_cons_of_mem _ hv)
    rw [List.map_cons, List.map_cons]
    cases ts with
    | nil =>
      have hlack : u.Agrees a p ↔ (u.member a).MayLack := by rw [Slot.Agrees, hnone, Slot.member]
      rw [Shape.positional, nextItem_of_nil h, ok_bind]
      cases hdefault : u.default? with
      | none => simp [Slot.field, InOrder, Slot.member, Slot.MayLack, hdefault]
      | some d =>
        simp only [Slot.field, hdefault, Option.isSome_some, if_true]
        rw [ih hnext hempty h, agrees_concat_iff, hlack]
        simp only [InOrder, and_assoc]
    | cons t ts =>
      obtain ⟨item, more, hitem, hmore, -, hitemNext⟩ := nextItem_of_cons h
      have hu : u ∈ slots := by simp [hslots]
      have hread := hs.reads u hu t item (more ++ tail) hitem (follows_of_moreItems hmore tail)
      have hrest (x : u.Value) : (∃ q mid,
          s.positional (rest.map Slot.field) (index + 1) false (u.put p x) (more ++ tail) =
            .ok (q, mid) ∧ s.finish q = .ok a ∧ endList mid = .ok tail') ↔
          (((∀ v ∈ done, v.Agrees a p) ∧ u.value a = x) ∧
            InOrder (rest.map fun v => v.member a) ts) ∧ tail' = tail := by
        rw [← agrees_put_iff hs a hslots]
        refine ih hnext (fun v hv => ?_) hmore
        rw [(get_put_of_split hs hslots p x).2 v hv, hempty v hv]
      rw [Shape.positional, hitemNext, ok_bind]
      simp only [Slot.field, bind_eq_ok_iff, Prod.exists, hread, InOrder, Slot.member]
      constructor
      · rintro ⟨q, mid, ⟨_, _, ⟨x, _, ⟨hx, rfl⟩, hok⟩, hpositional⟩, hfinish, hend⟩
        cases hok
        obtain ⟨⟨⟨hdone, rfl⟩, hts⟩, rfl⟩ := (hrest x).mp ⟨q, mid, hpositional, hfinish, hend⟩
        exact ⟨⟨hdone, hx, hts⟩, rfl⟩
      · rintro ⟨⟨hdone, hx, hts⟩, rfl⟩
        obtain ⟨q, mid, hpositional, hfinish, hend⟩ := (hrest _).mpr ⟨⟨⟨hdone, rfl⟩, hts⟩, rfl⟩
        exact ⟨q, mid, ⟨_, _, ⟨_, _, ⟨hx, rfl⟩, rfl⟩, hpositional⟩, hfinish, hend⟩

/-! ## Records -/

/-- An object is read exactly when it renders a record. -/
theorem read_object_iff (a : α) {es : List (Option (List Char) × Tree)} {inside : List Char}
    (h : EntriesToCome true es inside) {rest rest' : List Char} :
    s.read ('\x7b' :: (inside ++ rest)) = .ok (a, rest') ↔
      Renders (slots.map fun u => u.member a) (.record es) ∧ rest' = rest := by
  have hlength : inside.length < (inside ++ rest).length + 1 := by
    rw [List.length_append]
    omega
  obtain ⟨close, first, hclose, hentries⟩ := entriesWithin_eq_ok_iff hs h hlength
  have hrenders : Renders (slots.map fun u => u.member a) (.record es) ↔
      ∃ q, Fills slots s.start es q ∧ ∀ u ∈ slots, u.Agrees a q := by
    rw [exists_fills_iff hs a, Renders, List.forall_mem_map]
    refine and_congr_right fun _ => forall₂_congr fun u hu => ?_
    rw [Slot.Due, hs.start u hu]
    rfl
  rw [Shape.read, skipBlank_of_not_isBlank rfl]
  simp only [bind_eq_ok_iff, Prod.exists]
  constructor
  · rintro ⟨q, _, hread, a', hfinish, mid, hend, hok⟩
    obtain ⟨hfills, rfl⟩ := (hentries _ _ q _).mp hread
    rw [endObject_append hclose] at hend
    cases hend
    cases hok
    exact ⟨hrenders.mpr ⟨q, hfills, (hs.finish q a).mp hfinish⟩, rfl⟩
  · rintro ⟨hmembers, rfl⟩
    obtain ⟨q, hfills, hagrees⟩ := hrenders.mp hmembers
    exact ⟨q, _, (hentries _ _ q _).mpr ⟨hfills, rfl⟩, a, (hs.finish q a).mpr hagrees, _,
      endObject_append hclose _, rfl⟩

/-- A list is read exactly when it renders a record. -/
theorem read_list_iff (a : α) {ts : List Tree} {inside : List Char}
    (h : ItemsToCome true ts inside) {rest rest' : List Char} :
    s.read ('[' :: (inside ++ rest)) = .ok (a, rest') ↔
      Renders (slots.map fun u => u.member a) (.list ts) ∧ rest' = rest := by
  have hpositional : (∃ q mid,
      s.positional (slots.map Slot.field) 0 true s.start (inside ++ rest) = .ok (q, mid) ∧
        s.finish q = .ok a ∧ endList mid = .ok rest') ↔
      Renders (slots.map fun u => u.member a) (.list ts) ∧ rest' = rest := by
    rw [positional_iff hs a (List.nil_append slots).symm hs.start h]
    simp [Renders]
  rw [Shape.read, skipBlank_of_not_isBlank rfl]
  simp only [bind_eq_ok_iff, Prod.exists, hs.fields]
  constructor
  · rintro ⟨q, mid, hread, a', hfinish, _, hend, hok⟩
    cases hok
    exact hpositional.mp ⟨q, mid, hread, hfinish, hend⟩
  · intro hmembers
    obtain ⟨q, mid, hread, hfinish, hend⟩ := hpositional.mpr hmembers
    exact ⟨q, mid, hread, a, hfinish, _, hend, rfl⟩

omit hs in
theorem read_ne_ok {c : Char} (hblank : isBlank c = false) (hbrace : c ≠ '\x7b')
    (hbracket : c ≠ '[') (cs : List Char) (x : α × List Char) : s.read (c :: cs) ≠ .ok x := by
  rw [Shape.read, skipBlank_of_not_isBlank hblank]
  split
  · next heq => exact absurd (List.cons.inj heq).1 hbrace
  · next heq => exact absurd (List.cons.inj heq).1 hbracket
  · exact refuse_ne_ok _ _ _

/-- A shape whose slots are kept apart reads exactly the trees that render a record. -/
theorem Lawful.reads_read :
    Reads s.read fun a t => Renders (slots.map fun u => u.member a) t := by
  intro t cs rest ht hrest a rest'
  obtain ⟨c, bare, hc, htoken, hbare⟩ := ht.exists_bare
  have hread : s.read (cs ++ rest) = s.read (c :: (bare ++ rest)) := by
    rw [Shape.read, htoken.skipBlank hc.ne.1, Shape.read, skipBlank_of_not_isBlank hc.ne.1]
  rw [hread]
  cases t with
  | record es =>
    obtain rfl : c = '\x7b' := hc
    obtain ⟨inside, hinside, htoken⟩ := hbare
    cases Token.eq htoken rfl
    exact read_object_iff hs a hinside
  | list ts =>
    obtain rfl : c = '[' := hc
    obtain ⟨inside, hinside, htoken⟩ := hbare
    cases Token.eq htoken rfl
    exact read_list_iff hs a hinside
  | null | truth _ | whole _ | real | text _ =>
    have hbrace : c ≠ '\x7b' := by
      rintro rfl
      obtain ⟨_, ⟨⟩⟩ := opensWith_brace_iff.mp hc
    have hbracket : c ≠ '[' := by
      rintro rfl
      obtain ⟨_, ⟨⟩⟩ := opensWith_bracket_iff.mp hc
    exact iff_of_false (read_ne_ok hc.ne.1 hbrace hbracket _ _) fun h => h.1

end

end DiagnosticRelay.Json
