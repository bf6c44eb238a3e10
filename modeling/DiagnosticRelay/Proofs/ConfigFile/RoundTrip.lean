import DiagnosticRelay.Proofs.ConfigFile
import DiagnosticRelay.Proofs.Configured
import DiagnosticRelay.Proofs.Toml.Printing

/-!
# Configuration files that are written and loaded

`RoundTrips` says how every configuration file loads. Whatever settings a program prints, in any
order of the sections and of their entries and with any strings, these are the settings that are
loaded; so are those of any other text that chooses them. No file is no configuration, and each
error carries the path of the file.

The grammar of TOML is assumed, with the limits that its reader has: values may be nested
`nestingLimit` deep, keys may have `partLimit` parts, and numbers have to be in range. A text beyond
them is rejected, also where it says nothing that is asked for (`load_outOfRange_unknown`).
-/

namespace DiagnosticRelay.ConfigFile

open Toml

/-! ## Printed files -/

/-- The entries of the `diagnostics` section with what is chosen. -/
def Choice.diagnosticsEntries (c : Choice) : List (String × Printable) :=
  (c.grammarScopes.map fun ss => ("grammar_scopes", .texts ss)).toList ++
    (c.runOnSave.map fun b => ("run_on_save", .truth b)).toList

/-- The entries of the `log` section with what is chosen. -/
def Choice.logEntries (c : Choice) : List (String × Printable) :=
  (c.filter.map fun s => ("filter", .text s)).toList

/-- Sections that give what is chosen and nothing else, in any order. A section without entries may
be there or not. -/
structure Lists (sections : List PrintableSection) (c : Choice) : Prop where
  nodup : (sections.map Prod.fst).Nodup
  names : ∀ s ∈ sections, s.1 = "diagnostics" ∨ s.1 = "log"
  diagnostics : ((sections.lookup "diagnostics").getD []).Perm c.diagnosticsEntries
  log : ((sections.lookup "log").getD []).Perm c.logEntries

theorem name_of_mem_diagnosticsEntries {c : Choice} {e : String × Printable}
    (h : e ∈ c.diagnosticsEntries) : e.1 = "grammar_scopes" ∨ e.1 = "run_on_save" := by
  simp only [Choice.diagnosticsEntries, List.mem_append, Option.mem_toList,
    Option.map_eq_some_iff] at h
  rcases h with ⟨ss, -, rfl⟩ | ⟨b, -, rfl⟩
  · exact .inl rfl
  · exact .inr rfl

theorem name_of_mem_logEntries {c : Choice} {e : String × Printable} (h : e ∈ c.logEntries) :
    e.1 = "filter" := by
  simp only [Choice.logEntries, Option.mem_toList, Option.map_eq_some_iff] at h
  obtain ⟨s, -, rfl⟩ := h
  rfl

theorem nodup_diagnosticsEntries (c : Choice) : (c.diagnosticsEntries.map Prod.fst).Nodup := by
  obtain ⟨scopes, runOnSave, filter⟩ := c
  cases scopes <;> cases runOnSave <;> simp [Choice.diagnosticsEntries]

theorem nodup_logEntries (c : Choice) : (c.logEntries.map Prod.fst).Nodup := by
  obtain ⟨scopes, runOnSave, filter⟩ := c
  cases filter <;> simp [Choice.logEntries]

/-- Every choice can be listed. -/
theorem lists_both (c : Choice) :
    Lists [("diagnostics", c.diagnosticsEntries), ("log", c.logEntries)] c where
  nodup := by simp
  names := by simp
  diagnostics := .refl _
  log := .refl _

namespace Lists

variable {sections : List PrintableSection} {c : Choice}

/-- A listed section has the chosen entries in some order. -/
theorem perm_of_mem (h : Lists sections c) {s : PrintableSection} (hs : s ∈ sections) :
    s.1 = "diagnostics" ∧ s.2.Perm c.diagnosticsEntries ∨ s.1 = "log" ∧ s.2.Perm c.logEntries := by
  have hlookup : sections.lookup s.1 = some s.2 := (lookup_eq_some_iff_mem h.nodup).mpr hs
  rcases h.names s hs with hname | hname
  · have hperm := h.diagnostics
    rw [← hname, hlookup] at hperm
    exact .inl ⟨hname, hperm⟩
  · have hperm := h.log
    rw [← hname, hlookup] at hperm
    exact .inr ⟨hname, hperm⟩

theorem isBareName (h : Lists sections c) :
    ∀ s ∈ sections, IsBareName s.1 ∧ ∀ e ∈ s.2, IsBareName e.1 := by
  intro s hs
  have hdiagnostics : IsBareName "diagnostics" := by decide
  have hlog : IsBareName "log" := by decide
  have hscopes : IsBareName "grammar_scopes" := by decide
  have hrunOnSave : IsBareName "run_on_save" := by decide
  have hfilter : IsBareName "filter" := by decide
  rcases h.perm_of_mem hs with ⟨hname, hperm⟩ | ⟨hname, hperm⟩
  · refine ⟨hname ▸ hdiagnostics, fun e he => ?_⟩
    rcases name_of_mem_diagnosticsEntries (hperm.mem_iff.mp he) with hentry | hentry
    · exact hentry ▸ hscopes
    · exact hentry ▸ hrunOnSave
  · refine ⟨hname ▸ hlog, fun e he => ?_⟩
    exact name_of_mem_logEntries (hperm.mem_iff.mp he) ▸ hfilter

theorem nodup_entries (h : Lists sections c) : ∀ s ∈ sections, (s.2.map Prod.fst).Nodup := by
  intro s hs
  rcases h.perm_of_mem hs with ⟨-, hperm⟩ | ⟨-, hperm⟩
  · exact (hperm.map Prod.fst).nodup_iff.mpr (nodup_diagnosticsEntries c)
  · exact (hperm.map Prod.fst).nodup_iff.mpr (nodup_logEntries c)

end Lists

theorem hasSection_printedFields (sections : List PrintableSection) (name : String) :
    HasSection (printedFields sections) name
      (printableFields ((sections.lookup name).getD [])) := by
  have hget := get?_printedFields sections name
  cases hlookup : sections.lookup name with
  | none =>
    rw [hlookup] at hget
    exact .absent hget
  | some es =>
    rw [hlookup] at hget
    exact .present hget

/-- A section has one set of fields. -/
theorem HasSection.unique {root fs gs : Fields} {name : String} (h : HasSection root name fs)
    (h' : HasSection root name gs) : fs = gs := by
  cases h with
  | absent h =>
    cases h' with
    | absent => rfl
    | present h' => simp [h] at h'
  | present h =>
    cases h' with
    | absent h' => simp [h] at h'
    | present h' =>
      rw [h] at h'
      cases h'
      rfl

/-- Printed entries are found under their names, in whatever order they are. -/
theorem get?_printableFields_of_perm {es es' : List (String × Printable)} (h : es.Perm es')
    (hnodup : (es'.map Prod.fst).Nodup) (name : String) :
    (printableFields es).get? name = (printableFields es').get? name := by
  have hdistinct : (printableFields es').Distinct := by
    rw [Fields.Distinct, printableFields, List.map_map]
    exact hnodup
  exact hdistinct.get?_eq_of_perm (h.map _) name

theorem Lists.chooses {sections : List PrintableSection} {c : Choice} (h : Lists sections c) :
    Chooses (printedFields sections) c := by
  have hdiagnostics := get?_printableFields_of_perm h.diagnostics (nodup_diagnosticsEntries c)
  have hlog := get?_printableFields_of_perm h.log (nodup_logEntries c)
  obtain ⟨scopes, runOnSave, filter⟩ := c
  constructor
  · refine ⟨_, hasSection_printedFields sections "diagnostics", ?_, ?_⟩
    · rw [hdiagnostics]
      cases scopes <;> cases runOnSave <;> rfl
    · rw [hdiagnostics]
      cases scopes <;> cases runOnSave <;> rfl
  · refine ⟨_, hasSection_printedFields sections "log", ?_⟩
    rw [hlog]
    cases filter <;> rfl

theorem othersInRange_printableFields {known : List String} {es : List (String × Printable)}
    (h : ∀ e ∈ es, e.1 ∈ known) : OthersInRange known (printableFields es) := by
  intro f hf hother
  obtain ⟨e, he, rfl⟩ := List.mem_map.mp hf
  exact absurd (h e he) hother

/-- Among printed entries there are none that nobody asks for. -/
theorem Lists.inRange {sections : List PrintableSection} {c : Choice} (h : Lists sections c) :
    InRange (printedFields sections) where
  outside := by
    intro f hf hother
    obtain ⟨s, hs, rfl⟩ := List.mem_map.mp hf
    rcases h.names s hs with hname | hname <;> simp [hname] at hother
  diagnostics hfs := by
    rw [hfs.unique (hasSection_printedFields sections "diagnostics")]
    refine othersInRange_printableFields fun e he => ?_
    rcases name_of_mem_diagnosticsEntries (h.diagnostics.mem_iff.mp he) with hname | hname <;>
      simp [hname]
  log hfs := by
    rw [hfs.unique (hasSection_printedFields sections "log")]
    refine othersInRange_printableFields fun e he => ?_
    simp [name_of_mem_logEntries (h.log.mem_iff.mp he)]

/-! ## Loading -/

/-- What can be seen but has no text cannot be read. -/
theorem load_of_text_eq_error (path : Path) {body : Body} (hseen : body.isSeen = true)
    {cause : ReadFailure} (h : body.text = .error cause) :
    load path (some body) = .error (.read path cause) := by
  rw [load, hseen, h]
  rfl

theorem load_of_ofToml? (path : Path) {text : String} {config : ConfigFile}
    (h : ofToml? text = some config) : load path (some (.ofText text)) = .ok (some config) := by
  rw [Body.ofText, load_bytes, CommandLine.fromUTF8?_toUTF8]
  simp only [h]

theorem load_of_not_ofToml? (path : Path) {text : String} (h : ofToml? text = none) :
    load path (some (.ofText text)) = .error (.parse path) := by
  rw [Body.ofText, load_bytes, CommandLine.fromUTF8?_toUTF8]
  simp only [h]

theorem ofToml?_of_parse? {text : String} {root : Fields} (h : Toml.parse? text = some root) :
    ofToml? text = ofFields? root := by
  rw [ofToml?, h]
  rfl

/-- A file with a text loads with what is chosen. -/
def LoadsAs (path : Path) (text : String) (c : Choice) : Prop :=
  ∃ config, load path (some (.ofText text)) = .ok (some config) ∧
    config.settingsOrDefault = c.settings ∧ config.logFilter = c.filter

/-- How the configuration file at a path loads. -/
structure RoundTrips (path : Path) : Prop where
  absent : load path none = .ok none
  directory : load path (some .directory) = .error (.read path .isDirectory)
  notText {content : ByteArray} (h : ¬ content.IsValidUTF8) :
    load path (some (.bytes content)) = .error (.read path .notText)
  /-- Whatever else keeps a file that can be seen from being read is the cause of the error. -/
  unread {body : Body} (hseen : body.isSeen = true) {cause : ReadFailure}
    (h : body.text = .error cause) : load path (some body) = .error (.read path cause)
  listed (c : Choice) : ∃ sections, Lists sections c
  /-- What a program prints is what is loaded. -/
  printed {sections : List PrintableSection} {c : Choice} (h : Lists sections c) :
    LoadsAs path (print sections) c
  /-- So is what is written in any other form, in any order and with other entries and sections,
  whatever values in range these have. -/
  written {o : Outline} {text : String} (htext : DocumentText o.statements text) (ho : o.Proper)
    {c : Choice} (h : Chooses o.fields c) (hrange : InRange o.fields) : LoadsAs path text c
  /-- In all, the tables that a text is read as decide. -/
  chosen {text : String} {root : Fields} (hread : Toml.parse? text = some root) {c : Choice}
    (h : Chooses root c) (hrange : InRange root) : LoadsAs path text c
  rejected {text : String} (hread : Toml.parse? text = none) :
    load path (some (.ofText text)) = .error (.parse path)
  mistyped {text : String} {root : Fields} (hread : Toml.parse? text = some root)
    (h : Mistyped root) : load path (some (.ofText text)) = .error (.parse path)
  outOfRange {text : String} {root : Fields} (hread : Toml.parse? text = some root)
    (h : ¬ InRange root) : load path (some (.ofText text)) = .error (.parse path)

theorem loadsAs_of_chooses (path : Path) {text : String} {root : Fields}
    (hread : Toml.parse? text = some root) {c : Choice} (h : Chooses root c)
    (hrange : InRange root) : LoadsAs path text c := by
  obtain ⟨config, hconfig, hsettings, hfilter⟩ := ofFields?_of_chooses h hrange
  have htext : ofToml? text = some config := (ofToml?_of_parse? hread).trans hconfig
  exact ⟨config, load_of_ofToml? path htext, hsettings, hfilter⟩

/-- A text whose tables are not those of a usable file does not parse. -/
theorem load_eq_error (path : Path) {text : String} {root : Fields}
    (hread : Toml.parse? text = some root) (h : ∀ config, ofFields? root ≠ some config) :
    load path (some (.ofText text)) = .error (.parse path) := by
  refine load_of_not_ofToml? path ?_
  rw [ofToml?_of_parse? hread]
  exact Option.eq_none_iff_forall_ne_some.mpr h

/-- The configuration file at any path loads as it should. -/
theorem load_roundTrips (path : Path) : RoundTrips path where
  absent := rfl
  directory := rfl
  notText h := by rw [load_bytes, String.fromUTF8?, dif_neg h]
  unread hseen _ h := load_of_text_eq_error path hseen h
  listed c := ⟨_, lists_both c⟩
  printed h :=
    loadsAs_of_chooses path (parse?_print h.isBareName h.nodup h.nodup_entries) h.chooses h.inRange
  written htext ho _ h hrange := loadsAs_of_chooses path (parse?_of_outline ho htext) h hrange
  chosen hread _ h hrange := loadsAs_of_chooses path hread h hrange
  rejected hread := load_of_not_ofToml? path (by rw [ofToml?, hread]; rfl)
  mistyped hread h :=
    load_eq_error path hread fun _ hconfig => not_mistyped_of_ofFields? hconfig h
  outOfRange hread h := load_eq_error path hread fun _ hconfig => h (inRange_of_ofFields? hconfig)

example : ofToml? "[diagnostics]\nrun_on_save = \"yes\"\n" = none := by decide

/-- A value that nobody asks for, nested one level too deep. -/
def overNested : String :=
  "v = " ++ String.ofList (List.replicate 81 '[' ++ List.replicate 81 ']') ++
    "\n[log]\nfilter = \"k\"\n"

/-- A number out of range makes a file unusable even where nobody asks for it, and so does a value
that is nested too deep. A file that cannot be looked at is not missed. -/
theorem load_outOfRange_unknown :
    load ⟨"/home/c/.clarion/config.toml"⟩
        (some (.ofText "v = 1.7976931348623159e308\n[log]\nfilter = \"k\"\n")) =
        .error (.parse ⟨"/home/c/.clarion/config.toml"⟩) ∧
      load ⟨"/home/c/.clarion/config.toml"⟩ (some (.ofText overNested)) =
        .error (.parse ⟨"/home/c/.clarion/config.toml"⟩) ∧
      load ⟨"/home/c/.clarion/config.toml"⟩ (some (.ofText "[log]\nfilter = \"k\"\n")) =
        .ok (some ⟨none, some ⟨some "k"⟩⟩) ∧
      load ⟨"/home/c/.clarion/config.toml"⟩ (some (.hidden "Permission denied (os error 13)")) =
        .ok none := by
  have hwith : ofToml? "v = 1.7976931348623159e308\n[log]\nfilter = \"k\"\n" = none := by
    decide +kernel
  have hnested : ofToml? overNested = none := by decide +kernel
  have hwithout : ofToml? "[log]\nfilter = \"k\"\n" = some ⟨none, some ⟨some "k"⟩⟩ := by
    decide +kernel
  exact ⟨load_of_not_ofToml? _ hwith, load_of_not_ofToml? _ hnested, load_of_ofToml? _ hwithout,
    rfl⟩

end DiagnosticRelay.ConfigFile
