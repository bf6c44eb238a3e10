import DiagnosticRelay.Proofs.Toml.Lines

/-!
# The tables of a document

A document in its plain form has entries of the root table first and then sections, each with a
header and the entries of its table. Keys and headers may have dots. When no table gets two fields
of one name, reading the document gives just these tables, in the order of the text
(`parse?_of_outline`).
-/

namespace DiagnosticRelay.Toml

/-- The first part of a key. -/
def Key.first (k : Key) : String := k.outer.headD k.last

/-- The field that an entry with this key adds. -/
def placed : List String → String → Tree → String × Tree
  | [], last, t => (last, t)
  | name :: path, last, t => (name, .table .dotted [placed path last t])

/-- The field that a header with this key adds. -/
def opened : List String → String → Fields → String × Tree
  | [], last, fs => (last, .table .header fs)
  | name :: path, last, fs => (name, .table .implied [opened path last fs])

abbrev Entries := List (Key × Tree)

def Entries.fields (es : Entries) : Fields := es.map fun e => placed e.1.outer e.1.last e.2

def Entries.statements (es : Entries) : List Statement := es.map fun e => .entry e.1 e.2

/-- A table under its header. -/
structure Section where
  header : Key
  entries : Entries

namespace Section

def field (s : Section) : String × Tree := opened s.header.outer s.header.last s.entries.fields

def statements (s : Section) : List Statement := .header s.header :: s.entries.statements

end Section

/-- A document in its plain form. -/
structure Outline where
  preamble : Entries
  sections : List Section

/-- Whether no two fields have one name. -/
def Fields.Distinct (fs : Fields) : Prop := (fs.map Prod.fst).Nodup

namespace Outline

def fields (o : Outline) : Fields := o.preamble.fields ++ o.sections.map Section.field

def statements (o : Outline) : List Statement :=
  o.preamble.statements ++ o.sections.flatMap Section.statements

/-- No table has two fields of one name. -/
structure Proper (o : Outline) : Prop where
  root : o.fields.Distinct
  sections : ∀ s ∈ o.sections, s.entries.fields.Distinct

end Outline

/-! ## Fields -/

/-- Without names twice, what is found is what is there. -/
theorem lookup_eq_some_iff_mem {α : Type} {entries : List (String × α)}
    (h : (entries.map Prod.fst).Nodup) {name : String} {x : α} :
    entries.lookup name = some x ↔ (name, x) ∈ entries := by
  rw [List.lookup_eq_some_iff]
  constructor
  · rintro ⟨front, back, rfl, -⟩
    exact List.mem_append_right front List.mem_cons_self
  · intro hmem
    obtain ⟨front, back, rfl⟩ := List.append_of_mem hmem
    refine ⟨front, back, rfl, fun e he => bne_iff_ne.mpr ?_⟩
    rw [List.map_append, List.nodup_append] at h
    exact (h.2.2 e.1 (List.mem_map_of_mem he) name List.mem_cons_self).symm

namespace Fields

theorem get?_cons_of_ne {name other : String} (h : name ≠ other) (t : Tree) (fs : Fields) :
    Fields.get? ((other, t) :: fs) name = fs.get? name := by
  rw [get?, List.lookup_cons, beq_eq_false_iff_ne.mpr h]
  rfl

theorem get?_cons_eq_none_iff {name other : String} {t : Tree} {fs : Fields} :
    Fields.get? ((other, t) :: fs) name = none ↔ name ≠ other ∧ fs.get? name = none := by
  by_cases h : name = other
  · subst other
    simp [get?]
  · simp [get?_cons_of_ne h, h]

/-- A field behind those that are there already is new when no names are shared. -/
theorem Distinct.get?_eq_none {fs gs : Fields} {f : String × Tree}
    (h : Distinct (fs ++ f :: gs)) : fs.get? f.1 = none := by
  rw [get?, List.lookup_eq_none_iff]
  intro g hg
  rw [Distinct, List.map_append, List.map_cons, List.nodup_append] at h
  exact bne_iff_ne.mpr (h.2.2 g.1 (List.mem_map_of_mem hg) f.1 List.mem_cons_self).symm

/-- The order of fields does not matter. -/
theorem Distinct.get?_eq_of_perm {fs gs : Fields} (h : gs.Distinct) (hperm : fs.Perm gs)
    (name : String) : fs.get? name = gs.get? name := by
  have hfs : fs.Distinct := (hperm.map Prod.fst).nodup_iff.mpr h
  ext t
  rw [get?, get?, lookup_eq_some_iff_mem hfs, lookup_eq_some_iff_mem h, hperm.mem_iff]

theorem get?_append_singleton {fs : Fields} {name : String} (h : fs.get? name = none) (t : Tree) :
    Fields.get? (fs ++ [(name, t)]) name = some t := by
  rw [get?] at h
  rw [get?, List.lookup_append, h]
  simp

theorem set_of_get?_eq_none {fs : Fields} {name : String} (h : fs.get? name = none) (t : Tree) :
    fs.set name t = fs ++ [(name, t)] := by
  induction fs with
  | nil => rfl
  | cons f fs ih =>
    obtain ⟨hne, hfs⟩ := get?_cons_eq_none_iff.mp h
    rw [set, if_neg hne.symm, ih hfs, List.cons_append]

theorem set_append_singleton {fs : Fields} {name : String} (h : fs.get? name = none) (t u : Tree) :
    Fields.set (fs ++ [(name, u)]) name t = fs ++ [(name, t)] := by
  induction fs with
  | nil => exact if_pos rfl
  | cons f fs ih =>
    obtain ⟨hne, hfs⟩ := get?_cons_eq_none_iff.mp h
    rw [List.cons_append, set, if_neg hne.symm, ih hfs, List.cons_append]

/-- A key with a new first part adds a field. -/
theorem insertAt_of_get?_eq_none {fs : Fields} {path : List String} {last : String}
    (h : fs.get? (Key.first ⟨path, last⟩) = none) (t : Tree) :
    insertAt path last t fs = some (fs ++ [placed path last t]) := by
  induction path generalizing fs with
  | nil =>
    have hnew : fs.get? last = none := h
    rw [insertAt, insertNew, hnew]
    exact congrArg some (set_of_get?_eq_none hnew t)
  | cons name path ih =>
    have hnew : fs.get? name = none := h
    have hinner : insertAt path last t [] = some [placed path last t] := ih rfl
    simp [insertAt, hnew, hinner, set_of_get?_eq_none hnew, placed]

/-- A header with a new first part adds a table without fields. -/
theorem openTable_of_get?_eq_none {fs : Fields} {path : List String} {last : String}
    (h : fs.get? (Key.first ⟨path, last⟩) = none) :
    fs.openTable ⟨path, last⟩ = some (fs ++ [opened path last []]) := by
  induction path generalizing fs with
  | nil =>
    have hnew : fs.get? last = none := h
    simp [openTable, atHeader, hnew, set_of_get?_eq_none hnew, opened]
  | cons name path ih =>
    have hnew : fs.get? name = none := h
    have hinner : openTable ⟨path, last⟩ [] = some [opened path last []] := ih rfl
    rw [openTable] at hinner
    simp [openTable, atHeader, hnew, hinner, set_of_get?_eq_none hnew, opened]

/-- What is changed below a header is the table that the header opened. -/
theorem atHeader_opened {fs : Fields} {path : List String} {last : String}
    (h : fs.get? (Key.first ⟨path, last⟩) = none) (change : Fields → Option Fields)
    (inner : Fields) :
    Fields.atHeader change (path ++ [last]) (fs ++ [opened path last inner]) =
      (change inner).map fun inner => fs ++ [opened path last inner] := by
  induction path generalizing fs with
  | nil =>
    have hnew : fs.get? last = none := h
    cases hchange : change inner <;>
      simp [atHeader, opened, get?_append_singleton hnew, set_append_singleton hnew, hchange]
  | cons name path ih =>
    have hnew : fs.get? name = none := h
    have hempty : Fields.get? [] (Key.first ⟨path, last⟩) = none := rfl
    have hinner := ih hempty
    rw [List.nil_append] at hinner
    cases hchange : change inner <;>
      simp [atHeader, opened, get?_append_singleton hnew, set_append_singleton hnew, hinner,
        hchange]

end Fields

/-! ## Documents -/

theorem placed_fst (path : List String) (last : String) (t : Tree) :
    (placed path last t).1 = Key.first ⟨path, last⟩ := by
  cases path <;> rfl

theorem opened_fst (path : List String) (last : String) (fs : Fields) :
    (opened path last fs).1 = Key.first ⟨path, last⟩ := by
  cases path <;> rfl

/-- Entries are added to the table that they belong to, which stands at some place. -/
theorem foldlM_entries {place : Fields → Fields} {path : List String}
    (hplace : ∀ change inner, (place inner).atHeader change path = (change inner).map place)
    (es : Entries) (fs : Fields) (h : Fields.Distinct (fs ++ es.fields)) :
    es.statements.foldlM Progress.after? ⟨place fs, path⟩ =
      some ⟨place (fs ++ es.fields), path⟩ := by
  induction es generalizing fs with
  | nil => simp [Entries.statements, Entries.fields]
  | cons e es ih =>
    obtain ⟨⟨outer, last⟩, t⟩ := e
    have hfresh : fs.get? (Key.first ⟨outer, last⟩) = none :=
      placed_fst outer last t ▸ h.get?_eq_none
    have hstep : Progress.after? ⟨place fs, path⟩ (.entry ⟨outer, last⟩ t) =
        some ⟨place (fs ++ [placed outer last t]), path⟩ := by
      simp [Progress.after?, hplace, Fields.insert, Fields.insertAt_of_get?_eq_none hfresh]
    have hmore : Fields.Distinct ((fs ++ [placed outer last t]) ++ Entries.fields es) := by
      rw [List.append_assoc]
      exact h
    calc
      (Entries.statements ((⟨outer, last⟩, t) :: es)).foldlM Progress.after? ⟨place fs, path⟩ =
          (Entries.statements es).foldlM Progress.after?
            ⟨place (fs ++ [placed outer last t]), path⟩ := by
        rw [Entries.statements, List.map_cons, List.foldlM_cons, hstep]
        rfl
      _ = some ⟨place (fs ++ Entries.fields ((⟨outer, last⟩, t) :: es)), path⟩ := by
        rw [ih _ hmore, List.append_assoc]
        rfl

/-- A section adds its table. -/
theorem foldlM_section {s : Section} {fs : Fields} (hfs : fs.get? s.header.first = none)
    (h : s.entries.fields.Distinct) (path : List String) :
    s.statements.foldlM Progress.after? ⟨fs, path⟩ = some ⟨fs ++ [s.field], s.header.parts⟩ := by
  obtain ⟨⟨outer, last⟩, es⟩ := s
  have hopen : Progress.after? ⟨fs, path⟩ (.header ⟨outer, last⟩) =
      some ⟨fs ++ [opened outer last []], outer ++ [last]⟩ := by
    simp [Progress.after?, Fields.openTable_of_get?_eq_none hfs, Key.parts]
  have hentries := foldlM_entries (Fields.atHeader_opened hfs) es [] h
  rw [Section.statements, List.foldlM_cons, hopen]
  exact hentries

/-- Sections add their tables in order. -/
theorem foldlM_sections {ss : List Section} (hss : ∀ s ∈ ss, s.entries.fields.Distinct)
    {fs : Fields} (h : Fields.Distinct (fs ++ ss.map Section.field)) (path : List String) :
    ((ss.flatMap Section.statements).foldlM Progress.after? ⟨fs, path⟩).map Progress.root =
      some (fs ++ ss.map Section.field) := by
  induction ss generalizing fs path with
  | nil => simp
  | cons s ss ih =>
    have hfresh : fs.get? s.header.first = none := opened_fst .. ▸ h.get?_eq_none
    have hmore : Fields.Distinct ((fs ++ [s.field]) ++ ss.map Section.field) := by
      rw [List.append_assoc]
      exact h
    have hrest := ih (fun s hs => hss s (List.mem_cons_of_mem _ hs)) hmore s.header.parts
    rw [List.flatMap_cons, List.foldlM_append,
      foldlM_section hfresh (hss s List.mem_cons_self) path]
    exact hrest.trans (by rw [List.append_assoc]; rfl)

/-- A document in its plain form is read as its tables. -/
theorem parse?_of_outline {o : Outline} (h : o.Proper) {text : String}
    (htext : DocumentText o.statements text) : parse? text = some o.fields := by
  have hpreamble : Fields.Distinct ([] ++ o.preamble.fields) := by
    have hroot := h.root
    rw [Fields.Distinct, Outline.fields, List.map_append] at hroot
    exact (List.nodup_append.mp hroot).1
  have hroot (change : Fields → Option Fields) (inner : Fields) :
      inner.atHeader change [] = (change inner).map fun inner => inner := by
    rw [Fields.atHeader, Option.map_id']
  have hentries := foldlM_entries hroot o.preamble [] hpreamble
  rw [parse?_of_text htext, Outline.statements, List.foldlM_append, hentries]
  exact foldlM_sections h.sections h.root []

end DiagnosticRelay.Toml
