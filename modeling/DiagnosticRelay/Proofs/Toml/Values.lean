import DiagnosticRelay.Toml.Document
import DiagnosticRelay.Proofs.Toml.Layout

/-!
# Keys and values on a line

What a reader takes for a key or a value can depend on the text behind it, so `IsKey` and `IsValue`
say it for every text that may follow on the line. The keys without quotes are keys in this sense,
and strings, truth values and lists of strings are values, however they are laid out.
-/

namespace DiagnosticRelay.Toml

/-- A text that is a key, with its blanks, where an equals sign or a bracket follows. -/
def IsKey (text : List Char) (k : Key) : Prop :=
  ∀ c rest, c = '=' ∨ c = ']' → key (text ++ c :: rest) = some (k, c :: rest)

/-- A text that is a value where the line ends behind it. -/
def IsValue (text : List Char) (t : Tree) : Prop :=
  ∀ rest, (endLine? rest).isSome → value nestingLimit (skipBlank (text ++ rest)) = some (t, rest)

namespace Tree

abbrev text (s : String) : Tree := .scalar (.text s)

abbrev truth (b : Bool) : Tree := .scalar (.truth b)

/-- A list of strings. -/
def texts (ss : List String) : Tree := .list (ss.map text)

end Tree

/-- The letters of a truth value. -/
def truthLetters (b : Bool) : List Char :=
  if b then ['t', 'r', 'u', 'e'] else ['f', 'a', 'l', 's', 'e']

/-- The rest of a list of strings, up to and with its bracket. A comma may stand behind the last
string. -/
inductive Elements : List String → List Char → Prop where
  | nil {gap : List Char} (hgap : Gap gap) : Elements [] (gap ++ [']'])
  | last {s : String} {gap text gap' : List Char} (hgap : Gap gap) (h : Basic s.toList text)
    (hgap' : Gap gap') : Elements [s] (gap ++ (text ++ (gap' ++ [']'])))
  | cons {s : String} {ss : List String} {gap text gap' more : List Char} (hgap : Gap gap)
    (h : Basic s.toList text) (hgap' : Gap gap') (hmore : Elements ss more) :
    Elements (s :: ss) (gap ++ (text ++ (gap' ++ ',' :: more)))

/-- The texts of a key. -/
inductive KeyText : Key → List Char → Prop where
  /-- A name without quotes. -/
  | bare {blanks name blanks' : List Char} (hblanks : Blanks blanks) (hname : name ≠ [])
    (hbare : ∀ c ∈ name, isBare c = true) (hblanks' : Blanks blanks') :
    KeyText ⟨[], String.ofList name⟩ (blanks ++ (name ++ blanks'))
  /-- Any other key. -/
  | other {k : Key} {text : List Char} (h : IsKey text k) : KeyText k text

/-- The texts of a value. -/
inductive ValueText : Tree → List Char → Prop where
  | text {s : String} {blanks text : List Char} (hblanks : Blanks blanks)
    (h : Basic s.toList text) : ValueText (.text s) (blanks ++ text)
  | truth {blanks : List Char} (hblanks : Blanks blanks) (b : Bool) :
    ValueText (.truth b) (blanks ++ truthLetters b)
  | texts {ss : List String} {blanks text : List Char} (hblanks : Blanks blanks)
    (h : Elements ss text) : ValueText (Tree.texts ss) (blanks ++ '[' :: text)
  /-- Any other value. -/
  | other {t : Tree} {text : List Char} (h : IsValue text t) : ValueText t text

/-! ## Keys -/

theorem not_isBare_of_isBlank {c : Char} (h : isBlank c = true) : isBare c = false := by
  simp only [isBlank, Bool.or_eq_true, beq_iff_eq] at h
  rcases h with rfl | rfl <;> decide

/-- A name ends where blanks, an equals sign or a bracket follow. -/
theorem takeWhile_isBare {name blanks : List Char} (hbare : ∀ c ∈ name, isBare c = true)
    (hblanks : Blanks blanks) {c : Char} (hc : isBare c = false) (rest : List Char) :
    (name ++ (blanks ++ c :: rest)).takeWhile isBare = name ∧
      (name ++ (blanks ++ c :: rest)).dropWhile isBare = blanks ++ c :: rest := by
  have hnone : (blanks ++ c :: rest).takeWhile isBare = [] ∧
      (blanks ++ c :: rest).dropWhile isBare = blanks ++ c :: rest := by
    cases blanks with
    | nil => simp [hc]
    | cons d blanks => simp [not_isBare_of_isBlank (hblanks d List.mem_cons_self)]
  rw [List.takeWhile_append_of_pos hbare, List.dropWhile_append_of_pos hbare, hnone.1, hnone.2,
    List.append_nil]
  exact ⟨rfl, rfl⟩

theorem ne_of_passes {test : Char → Bool} {c d : Char} (hc : test c = true)
    (hd : test d = false) : c ≠ d := by
  rintro rfl
  simp [hc] at hd

/-- A name in front of blanks and a character is a part of a key. -/
theorem keyPart_append {name blanks : List Char} (hname : name ≠ [])
    (hbare : ∀ c ∈ name, isBare c = true) (hblanks : Blanks blanks) {c : Char}
    (hc : isBare c = false) (rest : List Char) :
    keyPart (name ++ (blanks ++ c :: rest)) = some (name, blanks ++ c :: rest) := by
  obtain ⟨htake, hdrop⟩ := takeWhile_isBare hbare hblanks hc rest
  obtain ⟨first, name, rfl⟩ := List.exists_cons_of_ne_nil hname
  have hfirst : isBare first = true := hbare first List.mem_cons_self
  unfold keyPart
  split
  next heq => exact absurd (List.cons.inj heq).1 (ne_of_passes hfirst (by decide))
  next heq => exact absurd (List.cons.inj heq).1 (ne_of_passes hfirst (by decide))
  next => simp only [htake, hdrop]

theorem isBlank_of_isBare {c : Char} (h : isBare c = true) : isBlank c = false := by
  by_contra hblank
  simp [not_isBare_of_isBlank (Bool.of_not_eq_false hblank)] at h

theorem skipBlank_of_isBare {name : List Char} (hname : name ≠ [])
    (hbare : ∀ c ∈ name, isBare c = true) (rest : List Char) :
    skipBlank (name ++ rest) = name ++ rest := by
  obtain ⟨first, name, rfl⟩ := List.exists_cons_of_ne_nil hname
  exact skipBlank_cons (isBlank_of_isBare (hbare first List.mem_cons_self)) _

theorem isKey_bare {blanks name blanks' : List Char} (hblanks : Blanks blanks) (hname : name ≠ [])
    (hbare : ∀ c ∈ name, isBare c = true) (hblanks' : Blanks blanks') :
    IsKey (blanks ++ (name ++ blanks')) ⟨[], String.ofList name⟩ := by
  intro c rest hc
  have hbareless : isBare c = false := by rcases hc with rfl | rfl <;> decide
  have hvisible : isBlank c = false := by rcases hc with rfl | rfl <;> decide
  have hdot : c ≠ '.' := by rcases hc with rfl | rfl <;> decide
  have hpart : keyPart (skipBlank (name ++ (blanks' ++ c :: rest))) =
      some (name, blanks' ++ c :: rest) := by
    rw [skipBlank_of_isBare hname hbare]
    exact keyPart_append hname hbare hblanks' hbareless rest
  have hend : skipBlank (blanks' ++ c :: rest) = c :: rest := by
    rw [skipBlank_append hblanks', skipBlank_cons hvisible]
  have hparts : keyPartsWithin (partLimit - 1) (blanks' ++ c :: rest) = some ([], c :: rest) := by
    simp [partLimit, keyPartsWithin, hend, hdot]
  simp only [key, List.append_assoc, skipBlank_append hblanks, hpart, hparts,
    skipBlank_cons hvisible, Key.ofParts, Option.bind_eq_bind, Option.bind_some]

theorem KeyText.isKey {k : Key} {text : List Char} (h : KeyText k text) : IsKey text k := by
  cases h with
  | bare hblanks hname hbare hblanks' => exact isKey_bare hblanks hname hbare hblanks'
  | other h => exact h

/-- Whether a character may be the first of a key. -/
def opensKey (c : Char) : Bool := c == '"' || c == '\'' || isBare c

theorem keyPart_eq_none {c : Char} (h : opensKey c = false) (rest : List Char) :
    keyPart (c :: rest) = none := by
  simp only [opensKey, Bool.or_eq_false_iff, beq_eq_false_iff_ne] at h
  obtain ⟨⟨hdouble, hsingle⟩, hbare⟩ := h
  simp [keyPart, hdouble, hsingle, hbare]

theorem isVisible_of_opensKey {c : Char} (h : opensKey c = true) : IsVisible c := by
  refine ⟨?_, ne_of_passes h rfl, ne_of_passes h rfl, ne_of_passes h rfl⟩
  simp only [opensKey, Bool.or_eq_true, beq_iff_eq] at h
  rcases h with (rfl | rfl) | hbare
  · decide
  · decide
  · exact isBlank_of_isBare hbare

/-- A key begins, behind its blanks, with a character that may open one. -/
theorem IsKey.exists_opening {text : List Char} {k : Key} (h : IsKey text k) :
    ∃ blanks c rest, text = blanks ++ c :: rest ∧ Blanks blanks ∧ opensKey c = true := by
  have hkey : key (text ++ ['=']) = some (k, ['=']) := h '=' [] (.inl rfl)
  have hblanks : Blanks (text.takeWhile isBlank) := fun c hc => List.mem_takeWhile_imp hc
  have htext : text.takeWhile isBlank ++ text.dropWhile isBlank = text :=
    List.takeWhile_append_dropWhile
  have hpart : keyPart (skipBlank (text ++ ['='])) ≠ none := by
    intro hnone
    simp [key, hnone] at hkey
  rw [← htext, List.append_assoc, skipBlank_append hblanks] at hpart
  cases hrest : text.dropWhile isBlank with
  | nil =>
    rw [hrest] at hpart
    exact absurd (by decide) hpart
  | cons c rest =>
    have hblank : isBlank c = false := by
      have hhead := List.head?_dropWhile_not isBlank text
      simpa [hrest] using hhead
    rw [hrest, List.cons_append, skipBlank_cons hblank] at hpart
    have hopens : opensKey c = true := by
      by_contra hcloses
      exact hpart (keyPart_eq_none (Bool.of_not_eq_true hcloses) _)
    exact ⟨text.takeWhile isBlank, c, rest, by rw [← hrest, htext], hblanks, hopens⟩

/-! ## Values -/

/-- What is left of a line begins, behind its blanks, with a comment or a line end. -/
theorem start_of_endLine {rest cs : List Char} {c : Char} (h : (endLine? rest).isSome)
    (hskip : skipBlank rest = c :: cs) : c = '#' ∨ c = '\n' ∨ c = '\r' := by
  by_contra hc
  obtain ⟨hhash, hfeed, hreturn⟩ : c ≠ '#' ∧ c ≠ '\n' ∧ c ≠ '\r' := by simpa using hc
  simp [endLine?, hskip, newline?, hhash, hfeed, hreturn] at h

theorem head?_ne_quote {rest : List Char} (h : (endLine? rest).isSome) :
    rest.head? ≠ some '"' := by
  cases rest with
  | nil => simp
  | cons c rest =>
    intro hc
    obtain rfl : c = '"' := by simpa using hc
    exact absurd (start_of_endLine h (skipBlank_cons (by decide) rest)) (by decide)

theorem value_of_ne {c : Char} (hlist : c ≠ '[') (htable : c ≠ '\x7b') (depth : Nat)
    (rest : List Char) : value depth (c :: rest) = value.plain (c :: rest) := by
  cases depth with
  | zero => rfl
  | succ depth => simp [value, hlist, htable]

/-- Where no quote and no bracket opens a value, it is a run of characters. -/
theorem value_of_scalar {c : Char} (hc : c ∉ ['[', '\x7b', '"', '\'']) {cs rest : List Char}
    {s : Scalar} (h : scalar (c :: cs) = some (s, rest)) (depth : Nat) :
    value depth (c :: cs) = some (.scalar s, rest) := by
  simp only [List.mem_cons, List.not_mem_nil, or_false, not_or] at hc
  obtain ⟨hlist, htable, hdouble, hsingle⟩ := hc
  rw [value_of_ne hlist htable]
  simp [value.plain, hdouble, hsingle, h]

/-- A string is a value at any depth. -/
theorem value_basic {s : String} {text : List Char} (h : Basic s.toList text) {rest : List Char}
    (hrest : rest.head? ≠ some '"') (depth : Nat) :
    value depth (text ++ rest) = some (.text s, rest) := by
  have hstring := string_append h hrest
  cases h with
  | @quoted body _ =>
    rw [List.cons_append] at hstring ⊢
    rw [value_of_ne (by decide) (by decide), value.plain, hstring]
    simp only [Option.bind_eq_bind, Option.bind_some, String.ofList_toList]

theorem isValue_text {s : String} {blanks text : List Char} (hblanks : Blanks blanks)
    (h : Basic s.toList text) : IsValue (blanks ++ text) (.text s) := by
  intro rest hrest
  have hstart : skipBlank (text ++ rest) = text ++ rest := by
    cases h
    exact skipBlank_cons (by decide) _
  rw [List.append_assoc, skipBlank_append hblanks, hstart]
  exact value_basic h (head?_ne_quote hrest) nestingLimit

theorem goesOn_skipBlank {rest : List Char} (h : (endLine? rest).isSome) :
    goesOn (skipBlank rest) = false := by
  cases hskip : skipBlank rest with
  | nil => rfl
  | cons c cs => rcases start_of_endLine h hskip with rfl | rfl | rfl <;> rfl

/-- A run of characters ends where the line does. -/
theorem runOf_eq_nil {rest : List Char} (h : (endLine? rest).isSome) : runOf rest = [] := by
  cases rest with
  | nil => rfl
  | cons c rest =>
    by_cases hblank : isBlank c = true
    · have hgoesOn := goesOn_skipBlank h
      rw [skipBlank, List.dropWhile_cons_of_pos hblank] at hgoesOn
      simp [runOf, hblank, skipBlank, hgoesOn]
    · have hstart := start_of_endLine h (skipBlank_cons (Bool.of_not_eq_true hblank) rest)
      rcases hstart with rfl | rfl | rfl <;> rfl

theorem isValue_truth {blanks : List Char} (hblanks : Blanks blanks) (b : Bool) :
    IsValue (blanks ++ truthLetters b) (.truth b) := by
  intro rest hrest
  have hrun : runOf (truthLetters b ++ rest) = truthLetters b := by
    cases b <;> simp [truthLetters, runOf, isBlank, enders, runOf_eq_nil hrest]
  have hscalar : scalar (truthLetters b ++ rest) = some (.truth b, rest) := by
    rw [scalar, hrun, List.drop_left]
    cases b <;> rfl
  obtain ⟨c, cs, hletters, hblank, hc⟩ : ∃ c cs, truthLetters b = c :: cs ∧
      isBlank c = false ∧ c ∉ ['[', '\x7b', '"', '\''] := by
    cases b
    · exact ⟨'f', ['a', 'l', 's', 'e'], rfl, by decide, by decide⟩
    · exact ⟨'t', ['r', 'u', 'e'], rfl, by decide, by decide⟩
  rw [hletters, List.cons_append] at hscalar
  rw [List.append_assoc, skipBlank_append hblanks, hletters, List.cons_append,
    skipBlank_cons hblank]
  exact value_of_scalar hc hscalar nestingLimit

/-! ## Lists of strings -/

/-- Reads one more item of a list. -/
def addItem (depth : Nat) (items : List Tree) : Reader (List Tree) := fun cs => do
  let (t, rest) ← value depth cs
  some (items ++ [t], rest)

theorem value_list (depth : Nat) (cs : List Char) :
    value (depth + 1) ('[' :: cs) = (do
      let (items, rest) ← elementsWithin (addItem depth) ']' (cs.length + 1) [] cs
      some (.list items, rest)) := rfl

section

variable {α : Type} {add : α → Reader α} {closer c : Char} {n : Nat} {a b : α}
  {cs cs' rest more : List Char}

theorem elementsWithin_closer (h : gap? cs = some (closer :: rest)) :
    elementsWithin add closer (n + 1) a cs = some (a, rest) := by
  simp [elementsWithin, h]

theorem elementsWithin_comma (h : gap? cs = some (c :: cs')) (hc : c ≠ closer)
    (hadd : add a (c :: cs') = some (b, rest)) (hrest : gap? rest = some (',' :: more)) :
    elementsWithin add closer (n + 1) a cs = elementsWithin add closer n b more := by
  simp [elementsWithin, h, hc, hadd, hrest]

theorem elementsWithin_last (h : gap? cs = some (c :: cs')) (hc : c ≠ closer)
    (hadd : add a (c :: cs') = some (b, rest)) (hrest : gap? rest = some (closer :: more))
    (hcomma : closer ≠ ',') : elementsWithin add closer (n + 1) a cs = some (b, more) := by
  simp [elementsWithin, h, hc, hadd, hrest]

end

/-- No string goes on behind a string. -/
theorem Gap.head?_ne_quote {gap : List Char} (h : Gap gap) {c : Char} (hc : c ≠ '"')
    (rest : List Char) : (gap ++ c :: rest).head? ≠ some '"' := by
  cases h with
  | nil => simpa using hc
  | blank hblank _ =>
    rw [List.cons_append, List.head?_cons]
    rintro ⟨⟩
    exact absurd hblank (by decide)
  | newline hending _ => cases hending <;> simp
  | comment _ _ _ => simp

/-- A string is read as an item. -/
theorem addItem_basic {s : String} {text : List Char} (h : Basic s.toList text) (depth : Nat)
    (items : List Tree) {rest : List Char} (hrest : rest.head? ≠ some '"') :
    addItem depth items (text ++ rest) = some (items ++ [.text s], rest) := by
  rw [addItem, value_basic h hrest depth]
  rfl

theorem Basic.exists_cons {letters text : List Char} (h : Basic letters text) :
    ∃ body, text = '"' :: body := by
  cases h
  exact ⟨_, rfl⟩

/-- The strings of a list are read one by one. -/
theorem elementsWithin_append {ss : List String} {text : List Char} (h : Elements ss text)
    {n : Nat} (hn : text.length ≤ n) (depth : Nat) (items : List Tree) (rest : List Char) :
    elementsWithin (addItem depth) ']' n items (text ++ rest) =
      some (items ++ ss.map Tree.text, rest) := by
  have hquote : IsVisible '"' := by decide
  have hcomma : IsVisible ',' := by decide
  have hbracket : IsVisible ']' := by decide
  induction h generalizing n items with
  | @nil gap hgap =>
    simp only [List.length_append, List.length_cons, List.length_nil] at hn
    obtain ⟨n, rfl⟩ := Nat.exists_eq_add_one.mpr (show 0 < n by omega)
    rw [List.append_assoc, List.singleton_append,
      elementsWithin_closer (hgap.gap?_visible hbracket rest), List.map_nil, List.append_nil]
  | @last s gap text gap' hgap h hgap' =>
    simp only [List.length_append, List.length_cons, List.length_nil] at hn
    obtain ⟨n, rfl⟩ := Nat.exists_eq_add_one.mpr (show 0 < n by omega)
    obtain ⟨body, hbody⟩ := h.exists_cons
    have hadd := addItem_basic h depth items (hgap'.head?_ne_quote (c := ']') (by decide) rest)
    have hstart := hgap.gap?_visible hquote (body ++ (gap' ++ ']' :: rest))
    rw [hbody] at hadd
    simp only [hbody, List.append_assoc, List.cons_append, List.nil_append] at hadd ⊢
    rw [elementsWithin_last hstart (by decide) hadd (hgap'.gap?_visible hbracket rest) (by decide)]
    rfl
  | @cons s ss gap text gap' more hgap h hgap' _ ih =>
    simp only [List.length_append, List.length_cons] at hn
    obtain ⟨n, rfl⟩ := Nat.exists_eq_add_one.mpr (show 0 < n by omega)
    obtain ⟨body, hbody⟩ := h.exists_cons
    have hadd := addItem_basic h depth items
      (hgap'.head?_ne_quote (c := ',') (by decide) (more ++ rest))
    have hstart := hgap.gap?_visible hquote (body ++ (gap' ++ ',' :: (more ++ rest)))
    have hmore := ih (n := n) (by omega) (items ++ [.text s])
    rw [hbody] at hadd
    simp only [hbody, List.append_assoc, List.cons_append] at hadd ⊢
    rw [elementsWithin_comma hstart (by decide) hadd (hgap'.gap?_visible hcomma (more ++ rest)),
      hmore, List.append_assoc, List.map_cons, List.singleton_append]

/-- A list of strings is a value. -/
theorem isValue_texts {ss : List String} {blanks text : List Char} (hblanks : Blanks blanks)
    (h : Elements ss text) : IsValue (blanks ++ '[' :: text) (Tree.texts ss) := by
  intro rest _
  have helements := elementsWithin_append h (n := (text ++ rest).length + 1)
    (by rw [List.length_append]; omega) 79 [] rest
  rw [List.append_assoc, skipBlank_append hblanks, List.cons_append, skipBlank_cons (by decide)]
  show value (79 + 1) ('[' :: (text ++ rest)) = _
  rw [value_list, helements]
  rfl

theorem ValueText.isValue {t : Tree} {text : List Char} (h : ValueText t text) :
    IsValue text t := by
  cases h with
  | text hblanks h => exact isValue_text hblanks h
  | truth hblanks b => exact isValue_truth hblanks b
  | texts hblanks h => exact isValue_texts hblanks h
  | other h => exact h

end DiagnosticRelay.Toml
