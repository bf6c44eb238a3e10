import DiagnosticRelay.Settings
import DiagnosticRelay.SourceFile
import Mathlib

/-!
# Grammars by extension

The grammar of a path is found through its components. `EndsIn` says of the text of a path, without
cutting it up, which name the path ends in: behind the name only slashes and lone dots may stand. A
path is `IsListed` when that name has one of the extensions in a table, in any case, and the grammar
of a path is the one listed for it, or the plain one when it is not listed (`grammar_byExtension`).
-/

namespace DiagnosticRelay

theorem Text.pieces_map {sep : Char} {f : Char → Char} (hf : ∀ c, f c = sep ↔ c = sep)
    (cs : List Char) : pieces sep (cs.map f) = (pieces sep cs).map (List.map f) := by
  induction cs with
  | nil => rfl
  | cons c cs ih =>
    by_cases h : c = sep
    · rw [List.map_cons, (hf c).mpr h, h, pieces_cons_self, pieces_cons_self, ih]
      rfl
    · rw [List.map_cons, pieces_cons_of_ne (mt (hf c).mp h), pieces_cons_of_ne h, ih]
      cases pieces sep cs <;> rfl

namespace Path

/-! ## The name a path ends in -/

/-- A name that a component can have: not a dot, not two dots, and without slashes. -/
structure IsName (name : List Char) : Prop where
  ne_nil : name ≠ []
  ne_here : name ≠ ['.']
  ne_up : name ≠ ['.', '.']
  noSlash : '/' ∉ name

/-- What may stand behind the last component: slashes, and dots by themselves behind a slash. -/
inductive Trailing : List Char → Prop where
  | nil : Trailing []
  | slash {cs : List Char} (h : Trailing cs) : Trailing ('/' :: cs)
  | dot {cs : List Char} (h : Trailing cs) : Trailing ('/' :: '.' :: cs)

/-- The name that the text of a path ends in. -/
inductive EndsIn : List Char → List Char → Prop where
  | alone {name behind : List Char} (hname : IsName name) (h : Trailing behind) :
    EndsIn (name ++ behind) name
  | below {name behind : List Char} (above : List Char) (hname : IsName name)
    (h : Trailing behind) : EndsIn (above ++ '/' :: (name ++ behind)) name

/-- A directory in front of a path does not change the name it ends in. -/
theorem EndsIn.inside {text name : List Char} (h : EndsIn text name) (above : List Char) :
    EndsIn (above ++ '/' :: text) name := by
  cases h with
  | alone hname h => exact .below above hname h
  | below outer hname h =>
    rw [← List.cons_append, ← List.append_assoc]
    exact .below (above ++ '/' :: outer) hname h

theorem ofPiece?_eq_name_iff {piece name : List Char} (hpiece : '/' ∉ piece) :
    Component.ofPiece? piece = some (.name name) ↔ piece = name ∧ IsName name := by
  constructor
  · intro h
    unfold Component.ofPiece? at h
    split at h
    · cases h
    · cases h
    · cases h
    · next hnil hhere hup =>
      cases h
      exact ⟨rfl, hnil, hhere, hup, hpiece⟩
  · rintro ⟨rfl, h⟩
    unfold Component.ofPiece?
    split
    · exact absurd rfl h.ne_nil
    · exact absurd rfl h.ne_here
    · exact absurd rfl h.ne_up
    · rfl

theorem ofPiece?_eq_none_iff {piece : List Char} :
    Component.ofPiece? piece = none ↔ piece = [] ∨ piece = ['.'] := by
  unfold Component.ofPiece?
  split <;> simp_all

/-- The components of a text other than one at the very front. -/
def inner (text : List Char) : List Component :=
  (Text.pieces '/' text).filterMap Component.ofPiece?

theorem inner_append_cons (above text : List Char) :
    inner (above ++ '/' :: text) = inner above ++ inner text := by
  simp only [inner, Text.pieces_append_cons, List.filterMap_append]

theorem inner_of_noSlash {piece : List Char} (h : '/' ∉ piece) :
    inner piece = (Component.ofPiece? piece).toList := by
  rw [inner, Text.pieces_eq_singleton h, List.filterMap_cons]
  cases Component.ofPiece? piece <;> rfl

/-- What may stand behind the last component leaves none. -/
theorem Trailing.inner_append {behind : List Char} (h : Trailing behind) (text : List Char) :
    inner (text ++ behind) = inner text := by
  induction h generalizing text with
  | nil => rw [List.append_nil]
  | @slash cs h ih =>
    have hcs : inner cs = [] := ih []
    rw [inner_append_cons, hcs, List.append_nil]
  | @dot cs h ih =>
    have hcs : inner ('.' :: cs) = [] := ih ['.']
    rw [inner_append_cons, hcs, List.append_nil]

theorem trailing_of_inner {text : List Char} (h : inner text = []) : Trailing ('/' :: text) := by
  induction text using Text.pieces_induction '/' with
  | single cs hcs =>
    rw [inner_of_noSlash hcs, Option.toList_eq_nil_iff, ofPiece?_eq_none_iff] at h
    obtain rfl | rfl := h
    · exact .slash .nil
    · exact .dot .nil
  | more cs ds hcs ih =>
    rw [inner_append_cons, List.append_eq_nil_iff, inner_of_noSlash hcs,
      Option.toList_eq_nil_iff, ofPiece?_eq_none_iff] at h
    obtain ⟨rfl | rfl, hds⟩ := h
    · exact .slash (ih hds)
    · exact .dot (ih hds)

/-- The last of the components is a name exactly if the text ends in it. -/
theorem getLast?_inner_eq_name_iff {text name : List Char} :
    (inner text).getLast? = some (.name name) ↔ EndsIn text name := by
  constructor
  · intro h
    induction text using Text.pieces_induction '/' with
    | single cs hcs =>
      rw [inner_of_noSlash hcs] at h
      have hpiece : Component.ofPiece? cs = some (.name name) := by
        cases hc : Component.ofPiece? cs <;> simp_all
      obtain ⟨rfl, hname⟩ := (ofPiece?_eq_name_iff hcs).mp hpiece
      simpa using EndsIn.alone hname .nil
    | more cs ds hcs ih =>
      rw [inner_append_cons] at h
      by_cases hds : inner ds = []
      · rw [hds, List.append_nil, inner_of_noSlash hcs] at h
        have hpiece : Component.ofPiece? cs = some (.name name) := by
          cases hc : Component.ofPiece? cs <;> simp_all
        obtain ⟨rfl, hname⟩ := (ofPiece?_eq_name_iff hcs).mp hpiece
        exact .alone hname (trailing_of_inner hds)
      · rw [List.getLast?_append_of_ne_nil _ hds] at h
        exact (ih h).inside cs
  · intro h
    have hlast : ∀ {name : List Char}, IsName name → inner name = [.name name] := by
      intro name hname
      rw [inner_of_noSlash hname.noSlash,
        (ofPiece?_eq_name_iff hname.noSlash).mpr ⟨rfl, hname⟩]
      rfl
    cases h with
    | alone hname h => rw [h.inner_append, hlast hname]; rfl
    | below above hname h =>
      rw [inner_append_cons, h.inner_append, hlast hname, List.getLast?_concat]

theorem front_ne_name {text : List Char} {c : Component} (h : c ∈ front text) (name : List Char) :
    c ≠ .name name := by
  unfold front at h
  split at h <;> simp_all

theorem fileName?_eq_some_iff {p : Path} {name : List Char} :
    p.fileName? = some name ↔ EndsIn p.text.toList name := by
  have hlast : p.fileName? = some name ↔ p.components.getLast? = some (.name name) := by
    unfold fileName?
    split <;> simp_all
  have hsplit : p.components = front p.text.toList ++ inner p.text.toList := rfl
  rw [hlast, ← getLast?_inner_eq_name_iff, hsplit]
  by_cases hinner : inner p.text.toList = []
  · rw [hinner, List.append_nil]
    constructor
    · intro h
      exact absurd rfl (front_ne_name (List.mem_of_getLast? h) name)
    · intro h
      cases h
  · rw [List.getLast?_append_of_ne_nil _ hinner]

/-! ## The extension of a name -/

/-- A name has an extension when it has a dot that is not its first character, and the extension is
what follows the last of its dots. -/
theorem afterLastDot?_eq_some_iff {name extension : List Char} :
    afterLastDot? name = some extension ↔
      ∃ stem, stem ≠ [] ∧ name = stem ++ '.' :: extension ∧ '.' ∉ extension := by
  unfold afterLastDot?
  constructor
  · intro h
    have hsplit := List.takeWhile_append_dropWhile (p := (· != '.')) (l := name.reverse)
    have hplain : ∀ c ∈ name.reverse.takeWhile (· != '.'), c ≠ '.' := by
      intro c hc
      simpa using List.all_eq_true.mp List.all_takeWhile c hc
    split at h
    · next c rest hdrop =>
      cases h
      refine ⟨(c :: rest).reverse, by simp, ?_, ?_⟩
      · rw [hdrop] at hsplit
        have hname := congrArg List.reverse hsplit
        simpa using hname.symm
      · intro hmem
        exact hplain '.' (List.mem_reverse.mp hmem) rfl
    · cases h
  · rintro ⟨stem, hstem, rfl, hextension⟩
    have hbefore : ∀ c ∈ extension.reverse, (c != '.') = true := by
      intro c hc
      simp only [bne_iff_ne]
      rintro rfl
      exact hextension (List.mem_reverse.mp hc)
    rw [List.reverse_append, List.reverse_cons, List.append_assoc,
      List.dropWhile_append_of_pos hbefore, List.takeWhile_append_of_pos hbefore]
    obtain ⟨c, rest, hrest⟩ := List.exists_cons_of_ne_nil (List.reverse_ne_nil_iff.mpr hstem)
    simp [hrest]

/-! ## Case -/

section Case

variable {f : Char → Char}

/-- A component with its letters changed. -/
def Component.map (f : Char → Char) : Component → Component
  | .name letters => .name (letters.map f)
  | c => c

theorem ofPiece?_map (hf : ∀ c, f c = '.' ↔ c = '.') (piece : List Char) :
    Component.ofPiece? (piece.map f) = (Component.ofPiece? piece).map (Component.map f) := by
  have hdot : f '.' = '.' := (hf '.').mpr rfl
  rcases piece with _ | ⟨c, _ | ⟨d, _ | ⟨e, rest⟩⟩⟩
  · rfl
  · by_cases hc : c = '.' <;> simp [Component.ofPiece?, Component.map, hf, hdot, hc]
  · by_cases hc : c = '.' <;> by_cases hd : d = '.' <;>
      simp [Component.ofPiece?, Component.map, hf, hdot, hc, hd]
  · simp [Component.ofPiece?, Component.map]

theorem inner_map (hslash : ∀ c, f c = '/' ↔ c = '/') (hdot : ∀ c, f c = '.' ↔ c = '.')
    (text : List Char) : inner (text.map f) = (inner text).map (Component.map f) := by
  simp only [inner, Text.pieces_map hslash, List.filterMap_map, List.map_filterMap]
  congr 1
  funext piece
  exact ofPiece?_map hdot piece

theorem afterLastDot?_map (hf : ∀ c, f c = '.' ↔ c = '.') (name : List Char) :
    afterLastDot? (name.map f) = (afterLastDot? name).map (List.map f) := by
  ext extension
  rw [Option.map_eq_some_iff]
  simp only [afterLastDot?_eq_some_iff]
  constructor
  · rintro ⟨stem, hstem, hname, hextension⟩
    obtain ⟨stem, dotted, rfl, rfl, hdotted⟩ := List.map_eq_append_iff.mp hname
    obtain ⟨c, extension, rfl, hc, rfl⟩ := List.map_eq_cons_iff.mp hdotted
    obtain rfl := (hf c).mp hc
    refine ⟨extension, ⟨stem, mt (congrArg (List.map f)) hstem, rfl, ?_⟩, rfl⟩
    intro hmem
    exact hextension (List.mem_map.mpr ⟨'.', hmem, hc⟩)
  · rintro ⟨extension, ⟨stem, hstem, rfl, hextension⟩, rfl⟩
    refine ⟨stem.map f, mt List.map_eq_nil_iff.mp hstem, ?_, ?_⟩
    · rw [List.map_append, List.map_cons, (hf '.').mpr rfl]
    · intro hmem
      obtain ⟨c, hc, hdot⟩ := List.mem_map.mp hmem
      exact hextension ((hf c).mp hdot ▸ hc)

end Case

/-- Only letters change with their case. -/
theorem toLower_eq_iff {c d : Char} (hd : d.isAlpha = false) : c.toLower = d ↔ c = d := by
  have hself : ∀ {c : Char}, c.isAlpha = false → c.toLower = c := by
    intro c hc
    refine Char.toLower_eq_of_not_isUpper fun hupper => ?_
    rw [Char.isAlpha, hupper, Bool.true_or] at hc
    cases hc
  constructor
  · rintro rfl
    rw [Char.isAlpha_toLower_eq_isAlpha] at hd
    exact (hself hd).symm
  · rintro rfl
    exact hself hd

/-- The path with its letters in lower case. -/
def lowered (p : Path) : Path := ⟨String.ofList (p.text.toList.map Char.toLower)⟩

theorem fileName?_lowered (p : Path) :
    p.lowered.fileName? = p.fileName?.map (List.map Char.toLower) := by
  have hslash (c : Char) : c.toLower = '/' ↔ c = '/' := toLower_eq_iff rfl
  have hdot (c : Char) : c.toLower = '.' ↔ c = '.' := toLower_eq_iff rfl
  ext name
  rw [fileName?_eq_some_iff, lowered, String.toList_ofList, ← getLast?_inner_eq_name_iff,
    inner_map hslash hdot, List.getLast?_map, Option.map_eq_some_iff, Option.map_eq_some_iff]
  simp only [fileName?_eq_some_iff, ← getLast?_inner_eq_name_iff]
  constructor
  · rintro ⟨c, hlast, hc⟩
    cases c with
    | name letters =>
      cases hc
      exact ⟨letters, hlast, rfl⟩
    | _ => cases hc
  · rintro ⟨letters, hlast, rfl⟩
    exact ⟨.name letters, hlast, rfl⟩

theorem grammar_lowered (p : Path) : p.lowered.grammar = p.grammar := by
  have hdot (c : Char) : c.toLower = '.' ↔ c = '.' := toLower_eq_iff rfl
  have hextension : p.lowered.extension? = p.extension?.map (List.map Char.toLower) := by
    rw [extension?, extension?, fileName?_lowered, Option.bind_map, Option.map_bind]
    congr 1
    funext name
    exact afterLastDot?_map hdot name
  rw [grammar, grammar, hextension]
  cases p.extension? with
  | none => rfl
  | some letters =>
    simp only [Option.map_some, List.map_map]
    congr 2
    funext c
    exact Char.toLower_toLower_eq_toLower c

/-! ## The grammar -/

/-- The extensions of the files that the compiler handles, with their grammars. -/
def listedExtensions : List (String × String) := [
  ("c", "source.c"), ("h", "source.c"),
  ("cc", "source.cpp"), ("cpp", "source.cpp"), ("cxx", "source.cpp"),
  ("hh", "source.cpp"), ("hpp", "source.cpp"), ("hxx", "source.cpp"),
  ("m", "source.objc"),
  ("mm", "source.objcpp")]

/-- The name that the path ends in has an extension that is listed with a grammar, once its letters
from A to Z are in lower case. -/
def IsListed (p : Path) (grammar : String) : Prop :=
  ∃ stem extension, EndsIn p.text.toList (stem ++ '.' :: extension) ∧ stem ≠ [] ∧
    '.' ∉ extension ∧
      (String.ofList (extension.map Char.toLower), grammar) ∈ listedExtensions

theorem extension?_eq_some_iff {p : Path} {extension : List Char} :
    p.extension? = some extension ↔
      ∃ stem, EndsIn p.text.toList (stem ++ '.' :: extension) ∧ stem ≠ [] ∧ '.' ∉ extension := by
  rw [extension?, Option.bind_eq_some_iff]
  simp only [fileName?_eq_some_iff, afterLastDot?_eq_some_iff]
  constructor
  · rintro ⟨_, hname, stem, hstem, rfl, hextension⟩
    exact ⟨stem, hname, hstem, hextension⟩
  · rintro ⟨stem, hname, hstem, hextension⟩
    exact ⟨_, hname, stem, hstem, rfl, hextension⟩

theorem isListed_iff {p : Path} {grammar : String} :
    p.IsListed grammar ↔ ∃ extension, p.extension? = some extension ∧
      (String.ofList (extension.map Char.toLower), grammar) ∈ listedExtensions := by
  simp only [extension?_eq_some_iff]
  constructor
  · rintro ⟨stem, extension, hname, hstem, hextension, hlisted⟩
    exact ⟨extension, ⟨stem, hname, hstem, hextension⟩, hlisted⟩
  · rintro ⟨extension, ⟨stem, hname, hstem, hextension⟩, hlisted⟩
    exact ⟨stem, extension, hname, hstem, hextension, hlisted⟩

theorem mem_listedExtensions_or (letters : List Char) :
    (String.ofList letters, grammarOfExtension letters) ∈ listedExtensions ∨
      grammarOfExtension letters = plainGrammar := by
  unfold grammarOfExtension
  split
  case h_11 => exact .inr rfl
  all_goals exact .inl (by decide)

theorem mem_listedExtensions_iff {letters : List Char} {grammar : String} :
    (String.ofList letters, grammar) ∈ listedExtensions ↔
      grammarOfExtension letters = grammar ∧ grammar ≠ plainGrammar := by
  constructor
  · intro h
    have hlisted : ∀ entry ∈ listedExtensions,
        grammarOfExtension entry.1.toList = entry.2 ∧ entry.2 ≠ plainGrammar := by decide
    simpa using hlisted _ h
  · rintro ⟨rfl, hplain⟩
    exact (mem_listedExtensions_or letters).resolve_right hplain

/-- What is listed for a path is its grammar, and only the plain grammar is not listed. -/
theorem isListed_iff_grammar {p : Path} {grammar : String} :
    p.IsListed grammar ↔ p.grammar = grammar ∧ grammar ≠ plainGrammar := by
  rw [isListed_iff, Path.grammar]
  simp only [mem_listedExtensions_iff]
  cases p.extension? with
  | none =>
    constructor
    · rintro ⟨_, hnone, _⟩
      cases hnone
    · rintro ⟨hplain, hne⟩
      exact absurd hplain.symm hne
  | some letters =>
    constructor
    · rintro ⟨_, hsome, hgrammar⟩
      cases hsome
      exact hgrammar
    · intro hgrammar
      exact ⟨letters, rfl, hgrammar⟩

/-- The grammars that are listed are those handled by default. -/
theorem handles_grammar_iff {p : Path} :
    Settings.default.handles p.grammar = true ↔ p.grammar ≠ plainGrammar := by
  rw [Settings.handles_iff]
  constructor
  · intro hmem hplain
    rw [hplain] at hmem
    exact absurd hmem (by decide)
  · intro hne
    obtain ⟨extension, -, hlisted⟩ := isListed_iff.mp (isListed_iff_grammar.mpr ⟨rfl, hne⟩)
    have hscopes : ∀ entry ∈ listedExtensions, entry.2 ∈ Settings.default.grammarScopes := by
      decide
    exact hscopes _ hlisted

/-- A path inside a directory ends in the same name. -/
theorem endsIn_join {p : Path} {name : List Char} (h : EndsIn p.text.toList name) (dir : Path) :
    EndsIn (dir.join p.text).text.toList name := by
  unfold join
  split
  · exact h
  · split
    · next hslash =>
      rw [String.endsWith_eq_endsWith_toSlice, String.Slice.endsWith_string_iff,
        String.copy_toSlice] at hslash
      obtain ⟨above, habove⟩ := hslash
      rw [String.toList_append, ← habove, List.append_assoc]
      exact h.inside above
    · simp only [String.toList_append, List.append_assoc]
      exact h.inside dir.text.toList

/-- The grammar of a path goes by the extension of its last name and by nothing else. -/
structure ByExtension (p : Path) : Prop where
  handled : Settings.default.handles p.grammar = true ↔ ∃ grammar, p.IsListed grammar
  listed : ∀ grammar, p.IsListed grammar → p.grammar = grammar
  plain : (∀ grammar, ¬ p.IsListed grammar) → p.grammar = plainGrammar
  spelling : ∀ q, Same p q → q.grammar = p.grammar
  /-- The case of letters does not matter, in the extension or elsewhere. -/
  lettering : ∀ q : Path, q.lowered = p.lowered → q.grammar = p.grammar
  inside : ∀ name, EndsIn p.text.toList name → ∀ dir, (join dir p.text).grammar = p.grammar

theorem grammar_byExtension (p : Path) : p.ByExtension where
  handled := by
    rw [handles_grammar_iff]
    simp only [isListed_iff_grammar]
    constructor
    · intro hne
      exact ⟨p.grammar, rfl, hne⟩
    · rintro ⟨_, rfl, hne⟩
      exact hne
  listed grammar h := (isListed_iff_grammar.mp h).1
  plain h := by
    by_contra hne
    exact h p.grammar (isListed_iff_grammar.mpr ⟨rfl, hne⟩)
  spelling q h := (grammar_congr h).symm
  lettering q h := by rw [← grammar_lowered q, h, grammar_lowered]
  inside name h dir := by
    have hname : (dir.join p.text).fileName? = p.fileName? :=
      (fileName?_eq_some_iff.mpr (endsIn_join h dir)).trans (fileName?_eq_some_iff.mpr h).symm
    rw [grammar, grammar, extension?, extension?, hname]

example : (⟨"src/..C//./"⟩ : Path).grammar = "source.c" := by decide

example : (⟨"src/.c"⟩ : Path).grammar = plainGrammar := by decide

end Path

end DiagnosticRelay
