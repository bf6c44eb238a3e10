import DiagnosticRelay.Proofs.Toml.Outline

/-!
# Printing sections

A program that saves settings writes them section by section, each setting on a line of its own.
Whatever names without quotes and whatever strings are given, the text is read as just these
sections (`parse?_print`).
-/

namespace DiagnosticRelay.Toml

/-- A value of a setting. -/
inductive Printable where
  | text (s : String)
  | truth (b : Bool)
  | texts (ss : List String)

namespace Printable

def tree : Printable → Tree
  | .text s => .text s
  | .truth b => .truth b
  | .texts ss => .texts ss

/-- The rest of a list of strings. -/
def elements : List String → List Char
  | [] => [']']
  | [s] => quoted s ++ [']']
  | s :: ss => quoted s ++ ',' :: ' ' :: elements ss

def letters : Printable → List Char
  | .text s => quoted s
  | .truth b => truthLetters b
  | .texts ss => '[' :: elements ss

end Printable

/-- A section's name and the names and values below it. -/
abbrev PrintableSection := String × List (String × Printable)

namespace PrintableSection

def header (s : PrintableSection) : Key := ⟨[], s.1⟩

def entries (s : PrintableSection) : Entries := s.2.map fun e => (⟨[], e.1⟩, e.2.tree)

def toSection (s : PrintableSection) : Section := ⟨s.header, s.entries⟩

/-- The line of an entry. -/
def entryLine (e : String × Printable) : List Char :=
  e.1.toList ++ ' ' :: '=' :: ' ' :: (e.2.letters ++ ['\n'])

def letters (s : PrintableSection) : List Char :=
  '[' :: (s.1.toList ++ ']' :: '\n' :: s.2.flatMap entryLine)

end PrintableSection

/-- The document with these sections. -/
def outlineOf (sections : List PrintableSection) : Outline :=
  ⟨[], sections.map PrintableSection.toSection⟩

def print (sections : List PrintableSection) : String :=
  String.ofList (sections.flatMap PrintableSection.letters)

/-- The fields of entries. -/
def printableFields (es : List (String × Printable)) : Fields := es.map fun e => (e.1, e.2.tree)

/-- The fields of a printed document. -/
def printedFields (sections : List PrintableSection) : Fields :=
  sections.map fun s => (s.1, .table .header (printableFields s.2))

/-- Whether a name needs no quotes. -/
def IsBareName (name : String) : Prop := name.toList ≠ [] ∧ name.toList.all isBare = true

instance (name : String) : Decidable (IsBareName name) := inferInstanceAs (Decidable (_ ∧ _))

/-! ## Values -/

/-- A list may have a blank more in front. -/
theorem Elements.cons_blank {ss : List String} {text : List Char} (h : Elements ss text) {c : Char}
    (hc : isBlank c = true) : Elements ss (c :: text) := by
  cases h with
  | nil hgap => exact .nil (.blank hc hgap)
  | last hgap h hgap' => exact .last (.blank hc hgap) h hgap'
  | cons hgap h hgap' hmore => exact .cons (.blank hc hgap) h hgap' hmore

theorem elements_printed (ss : List String) : Elements ss (Printable.elements ss) := by
  induction ss with
  | nil => exact .nil .nil
  | cons s ss ih =>
    cases ss with
    | nil => exact .last .nil (basic_quoted s) .nil
    | cons s' ss => exact .cons .nil (basic_quoted s) .nil (ih.cons_blank (by decide))

theorem blanks_singleton : Blanks [' '] := by simp [Blanks, isBlank]

theorem valueText_letters (v : Printable) : ValueText v.tree (' ' :: v.letters) := by
  cases v with
  | text s => exact .text blanks_singleton (basic_quoted s)
  | truth b => exact .truth blanks_singleton b
  | texts ss => exact .texts blanks_singleton (elements_printed ss)

theorem keyText_name {name : String} (h : IsBareName name) {blanks : List Char}
    (hblanks : Blanks blanks) : KeyText ⟨[], name⟩ (name.toList ++ blanks) := by
  have hkey := KeyText.bare blanks_nil h.1 (List.all_eq_true.mp h.2) hblanks
  rwa [String.ofList_toList, List.nil_append] at hkey

/-! ## Lines -/

/-- A statement is put in front of others with a line end behind it. -/
theorem linesText_cons {s : Statement} {ss : List Statement} {words text : List Char}
    (hwords : StatementText s words) (h : LinesText ss text) :
    LinesText (s :: ss) (words ++ '\n' :: text) :=
  .statement blanks_nil hwords (.newline blanks_nil .none .feed text) h

theorem linesText_entries {es : List (String × Printable)} (hes : ∀ e ∈ es, IsBareName e.1)
    {ss : List Statement} {text : List Char} (h : LinesText ss text) :
    LinesText (Entries.statements (es.map fun e => (⟨[], e.1⟩, e.2.tree)) ++ ss)
      (es.flatMap PrintableSection.entryLine ++ text) := by
  induction es with
  | nil => exact h
  | cons e es ih =>
    have hmore := ih fun e' he' => hes e' (List.mem_cons_of_mem e he')
    have hwords : StatementText (.entry ⟨[], e.1⟩ e.2.tree)
        ((e.1.toList ++ [' ']) ++ '=' :: (' ' :: e.2.letters)) :=
      .entry (keyText_name (hes e List.mem_cons_self) blanks_singleton) (valueText_letters e.2)
    have hline := linesText_cons hwords hmore
    simpa [PrintableSection.entryLine, Entries.statements] using hline

theorem linesText_print {sections : List PrintableSection}
    (h : ∀ s ∈ sections, IsBareName s.1 ∧ ∀ e ∈ s.2, IsBareName e.1) :
    LinesText ((sections.map PrintableSection.toSection).flatMap Section.statements)
      (sections.flatMap PrintableSection.letters) := by
  induction sections with
  | nil => exact .nil
  | cons s sections ih =>
    have hmore := ih fun s' hs' => h s' (List.mem_cons_of_mem s hs')
    obtain ⟨hname, hentries⟩ := h s List.mem_cons_self
    have hheader : StatementText (.header s.header) ('[' :: (s.1.toList ++ [']'])) := by
      have hkey := keyText_name hname blanks_nil
      rw [List.append_nil] at hkey
      exact .header hkey
    have hlines := linesText_cons hheader (linesText_entries hentries hmore)
    simpa [PrintableSection.letters, PrintableSection.toSection, PrintableSection.entries,
      Section.statements] using hlines

/-- What is printed is a document with the printed sections. -/
theorem documentText_print {sections : List PrintableSection}
    (h : ∀ s ∈ sections, IsBareName s.1 ∧ ∀ e ∈ s.2, IsBareName e.1) :
    DocumentText (outlineOf sections).statements (print sections) :=
  .plain (linesText_print h)

/-! ## Reading back -/

theorem fields_entries (s : PrintableSection) : s.entries.fields = printableFields s.2 := by
  simp [PrintableSection.entries, Entries.fields, printableFields, placed]

theorem fields_outlineOf (sections : List PrintableSection) :
    (outlineOf sections).fields = printedFields sections := by
  simp only [outlineOf, Outline.fields, Entries.fields, List.map_nil, List.nil_append,
    List.map_map, printedFields]
  refine List.map_congr_left fun s _ => ?_
  simp only [Function.comp_apply, PrintableSection.toSection, Section.field,
    PrintableSection.header, opened, fields_entries]

/-- What is printed is read back, when no section and no entry has another's name. -/
theorem parse?_print {sections : List PrintableSection}
    (hbare : ∀ s ∈ sections, IsBareName s.1 ∧ ∀ e ∈ s.2, IsBareName e.1)
    (hsections : (sections.map Prod.fst).Nodup)
    (hentries : ∀ s ∈ sections, (s.2.map Prod.fst).Nodup) :
    parse? (print sections) = some (printedFields sections) := by
  have hproper : (outlineOf sections).Proper := by
    constructor
    · rw [fields_outlineOf, Fields.Distinct, printedFields, List.map_map]
      exact hsections
    · intro s hs
      obtain ⟨s, hmem, rfl⟩ := List.mem_map.mp hs
      rw [Fields.Distinct, PrintableSection.toSection, fields_entries, printableFields,
        List.map_map]
      exact hentries s hmem
  rw [parse?_of_outline hproper (documentText_print hbare), fields_outlineOf]

example : print [("log", [("filter", .text "a\"\n")])] =
    "[log]\nfilter = \"a\\\"\\u000a\"\n" := by
  decide

theorem get?_printedFields (sections : List PrintableSection) (name : String) :
    (printedFields sections).get? name =
      (sections.lookup name).map fun es => .table .header (printableFields es) := by
  induction sections with
  | nil => rfl
  | cons s sections ih =>
    obtain ⟨other, es⟩ := s
    by_cases h : name = other
    · subst other
      simp [printedFields, Fields.get?]
    · rw [List.lookup_cons, beq_eq_false_iff_ne.mpr h]
      exact (Fields.get?_cons_of_ne h _ _).trans ih

end DiagnosticRelay.Toml
