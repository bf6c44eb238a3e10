import DiagnosticRelay.ConfigFile
import DiagnosticRelay.Proofs.Toml.Values

/-!
# What a configuration file comes to

A configuration file may choose any of three settings, in two sections. `Chooses` says of the tables
of a file what they choose. Tables that choose something come to the chosen values and the default
ones for the rest, whatever else is in them (`ofFields?_of_chooses`). The default values have two
sources, the setting left out and the section left out, which agree (`HasSection.settings_iff`). A
value of the wrong kind for one of the three, or a number that is out of range under a name nobody
asks for, makes a file unusable.
-/

namespace DiagnosticRelay.ConfigFile

open Toml

/-- What a configuration file may choose. -/
structure Choice where
  grammarScopes : Option (List String)
  runOnSave : Option Bool
  filter : Option String

/-- The settings with default values for what is not chosen. -/
def Choice.settings (c : Choice) : Settings :=
  ⟨c.grammarScopes.getD Settings.default.grammarScopes,
    c.runOnSave.getD Settings.default.runOnSave⟩

/-- The fields of a section. A section that is not there has none. -/
inductive HasSection (root : Fields) (name : String) : Fields → Prop where
  | absent (h : root.get? name = none) : HasSection root name []
  | present {origin : Origin} {fs : Fields} (h : root.get? name = some (.table origin fs)) :
    HasSection root name fs

/-- The sections hold just the chosen ones of the three settings, with the chosen values. -/
structure Chooses (root : Fields) (c : Choice) : Prop where
  diagnostics : ∃ fs, HasSection root "diagnostics" fs ∧
    fs.get? "grammar_scopes" = c.grammarScopes.map Tree.texts ∧
    fs.get? "run_on_save" = c.runOnSave.map Tree.truth
  log : ∃ fs, HasSection root "log" fs ∧
    fs.get? "filter" = c.filter.map Tree.text

/-- The numbers under all other names are within range. -/
def OthersInRange (known : List String) (fs : Fields) : Prop :=
  ∀ f ∈ fs, f.1 ∉ known → f.2.isReadable = true

/-- No number that nobody asks for is out of range. -/
structure InRange (root : Fields) : Prop where
  outside : OthersInRange ["diagnostics", "log"] root
  diagnostics {fs : Fields} (h : HasSection root "diagnostics" fs) :
    OthersInRange ["grammar_scopes", "run_on_save"] fs
  log {fs : Fields} (h : HasSection root "log" fs) : OthersInRange ["filter"] fs

/-- One of the three settings has a value of the wrong kind, or a section is none. -/
inductive Mistyped (root : Fields) : Prop where
  | grammarScopes {fs : Fields} {t : Tree} (h : HasSection root "diagnostics" fs)
    (ht : fs.get? "grammar_scopes" = some t) (hkind : ∀ ss, t ≠ Tree.texts ss) : Mistyped root
  | runOnSave {fs : Fields} {t : Tree} (h : HasSection root "diagnostics" fs)
    (ht : fs.get? "run_on_save" = some t) (hkind : ∀ b, t ≠ .truth b) : Mistyped root
  | filter {fs : Fields} {t : Tree} (h : HasSection root "log" fs)
    (ht : fs.get? "filter" = some t) (hkind : ∀ s, t ≠ .text s) : Mistyped root
  /-- A section has to be a table; a list of its values and a moment stand for one. -/
  | scalar {name : String} {s : Scalar} (hname : name = "diagnostics" ∨ name = "log")
    (h : root.get? name = some (.scalar s)) (hs : s ≠ .moment) : Mistyped root
  | rows {name : String} {last : Fields} {earlier : List Fields}
    (hname : name = "diagnostics" ∨ name = "log") (h : root.get? name = some (.rows last earlier)) :
    Mistyped root

/-! ## Fields -/

theorem fieldsAreReadable_iff {fs : Fields} :
    fieldsAreReadable fs = true ↔ ∀ f ∈ fs, f.2.isReadable = true := by
  induction fs with
  | nil => simp [fieldsAreReadable]
  | cons f fs ih => simp [fieldsAreReadable, ih]

theorem othersAreReadable_iff {known : List String} {fs : Fields} :
    othersAreReadable known fs = true ↔ OthersInRange known fs := by
  simp [othersAreReadable, fieldsAreReadable_iff, OthersInRange]

theorem text?_eq_some_iff {t : Tree} {s : String} : text? t = some s ↔ t = .text s := by
  unfold text?
  split
  next => simp
  next h => simpa using h s

theorem truth?_eq_some_iff {t : Tree} {b : Bool} :
    truth? t = some b ↔ t = .truth b := by
  unfold truth?
  split
  next => simp
  next h => simpa using h b

theorem mapM_text?_eq_some_iff {items : List Tree} {ss : List String} :
    items.mapM text? = some ss ↔ items = ss.map Tree.text := by
  induction items generalizing ss with
  | nil => cases ss <;> simp
  | cons t items ih =>
    cases ss with
    | nil => simp [List.mapM_cons, Option.bind_eq_some_iff]
    | cons s ss => simp [List.mapM_cons, Option.bind_eq_some_iff, text?_eq_some_iff, ih]

theorem texts?_eq_some_iff {t : Tree} {ss : List String} :
    texts? t = some ss ↔ t = Tree.texts ss := by
  unfold texts?
  split
  next items => simp [Tree.texts, mapM_text?_eq_some_iff]
  next h => exact iff_of_false nofun (h _)

/-- An optional field is read as what it was written from. -/
theorem optional_eq_some_iff {α : Type} {read : Tree → Option α} {write : α → Tree}
    (h : ∀ {t x}, read t = some x ↔ t = write x) {field : Option Tree} {x : Option α} :
    optional read field = some x ↔ field = x.map write := by
  cases field with
  | none => cases x <;> simp [optional]
  | some t => cases x <;> simp [optional, Option.bind_eq_some_iff, h]

/-! ## Sections -/

/-- What the fields of a section come to as settings. -/
def GivesSettings (fs : Fields) (s : Settings) : Prop :=
  OthersInRange ["grammar_scopes", "run_on_save"] fs ∧
    ∃ scopes, fs.get? "grammar_scopes" = Option.map Tree.texts scopes ∧
      ∃ runOnSave, fs.get? "run_on_save" = Option.map Tree.truth runOnSave ∧
        Settings.Partial.fill ⟨scopes, runOnSave⟩ = s

/-- What the fields of a section come to as a filter. -/
def GivesFilter (fs : Fields) (filter : Option String) : Prop :=
  OthersInRange ["filter"] fs ∧ fs.get? "filter" = filter.map Tree.text

theorem settings?_table_eq_some_iff {origin : Origin} {fs : Fields} {s : Settings} :
    settings? (.table origin fs) = some s ↔ GivesSettings fs s := by
  rw [settings?, GivesSettings, ← othersAreReadable_iff]
  split_ifs with h
  · simp [h, Option.bind_eq_some_iff, optional_eq_some_iff texts?_eq_some_iff,
      optional_eq_some_iff truth?_eq_some_iff]
  · simp [h]

theorem logSettings?_table_eq_some_iff {origin : Origin} {fs : Fields} {l : LogSettings} :
    logSettings? (.table origin fs) = some l ↔ GivesFilter fs l.filter := by
  rw [logSettings?, GivesFilter, ← othersAreReadable_iff]
  split_ifs with h
  · obtain ⟨filter⟩ := l
    simp [h, Option.bind_eq_some_iff, optional_eq_some_iff text?_eq_some_iff]
  · simp [h]

theorem othersInRange_nil (known : List String) : OthersInRange known [] :=
  fun _ h => absurd h List.not_mem_nil

/-- What a section of settings comes to. One that is not there comes to the same as an empty one. -/
theorem HasSection.settings_iff {root fs : Fields} (h : HasSection root "diagnostics" fs)
    {s : Settings} :
    (∃ d, optional settings? (root.get? "diagnostics") = some d ∧ d.getD .default = s) ↔
      GivesSettings fs s := by
  cases h with
  | absent h =>
    rw [h]
    constructor
    · rintro ⟨_, ⟨⟩, rfl⟩
      exact ⟨othersInRange_nil _, none, rfl, none, rfl, rfl⟩
    · rintro ⟨-, scopes, hscopes, runOnSave, hrun, rfl⟩
      obtain rfl : scopes = none := Option.map_eq_none_iff.mp hscopes.symm
      obtain rfl : runOnSave = none := Option.map_eq_none_iff.mp hrun.symm
      exact ⟨none, rfl, rfl⟩
  | @present origin _ h =>
    rw [← @settings?_table_eq_some_iff origin, h]
    simp [optional, Option.bind_eq_some_iff]

theorem HasSection.filter_iff {root fs : Fields} (h : HasSection root "log" fs)
    {filter : Option String} :
    (∃ l, optional logSettings? (root.get? "log") = some l ∧ l.bind LogSettings.filter = filter) ↔
      GivesFilter fs filter := by
  cases h with
  | absent h =>
    rw [h]
    constructor
    · rintro ⟨_, ⟨⟩, rfl⟩
      exact ⟨othersInRange_nil _, rfl⟩
    · rintro ⟨-, hfilter⟩
      obtain rfl : filter = none := Option.map_eq_none_iff.mp hfilter.symm
      exact ⟨none, rfl, rfl⟩
  | present h =>
    rw [h]
    simp only [optional, Option.bind_eq_bind, Option.bind_eq_some_iff, Option.some.injEq,
      logSettings?_table_eq_some_iff]
    constructor
    · rintro ⟨_, ⟨l, hl, rfl⟩, rfl⟩
      exact hl
    · intro hfilter
      exact ⟨some ⟨filter⟩, ⟨⟨filter⟩, hfilter, rfl⟩, rfl⟩

/-! ## Files -/

theorem ofFields?_eq_some_iff {root : Fields} {config : ConfigFile} :
    ofFields? root = some config ↔
      OthersInRange ["diagnostics", "log"] root ∧
        optional settings? (root.get? "diagnostics") = some config.diagnostics ∧
          optional logSettings? (root.get? "log") = some config.log := by
  rw [ofFields?, ← othersAreReadable_iff]
  split_ifs with h
  · obtain ⟨d, l⟩ := config
    simp [h, Option.bind_eq_some_iff]
  · simp [h]

/-- A file whose tables choose something is usable and comes to what they choose. -/
theorem ofFields?_of_chooses {root : Fields} {c : Choice} (h : Chooses root c)
    (hrange : InRange root) : ∃ config, ofFields? root = some config ∧
      config.settingsOrDefault = c.settings ∧ config.logFilter = c.filter := by
  obtain ⟨ds, hds, hscopes, hrunOnSave⟩ := h.diagnostics
  obtain ⟨ls, hls, hfilter⟩ := h.log
  obtain ⟨d, hd, hsettings⟩ := hds.settings_iff.mpr
    ⟨hrange.diagnostics hds, c.grammarScopes, hscopes, c.runOnSave, hrunOnSave, rfl⟩
  obtain ⟨l, hl, hlogFilter⟩ := hls.filter_iff.mpr ⟨hrange.log hls, hfilter⟩
  exact ⟨⟨d, l⟩, ofFields?_eq_some_iff.mpr ⟨hrange.outside, hd, hl⟩, hsettings, hlogFilter⟩

/-- A usable file has no number out of range under a name that nobody asks for. -/
theorem inRange_of_ofFields? {root : Fields} {config : ConfigFile}
    (h : ofFields? root = some config) : InRange root := by
  obtain ⟨houtside, hd, hl⟩ := ofFields?_eq_some_iff.mp h
  exact ⟨houtside, fun hds => (hds.settings_iff.mp ⟨_, hd, rfl⟩).1,
    fun hls => (hls.filter_iff.mp ⟨_, hl, rfl⟩).1⟩

theorem settings?_scalar {s : Scalar} (h : s ≠ .moment) : settings? (.scalar s) = none := by
  cases s with
  | moment => exact absurd rfl h
  | _ => rfl

theorem logSettings?_scalar {s : Scalar} (h : s ≠ .moment) : logSettings? (.scalar s) = none := by
  cases s with
  | moment => exact absurd rfl h
  | _ => rfl

/-- A usable file has no value of the wrong kind for one of the three settings. -/
theorem not_mistyped_of_ofFields? {root : Fields} {config : ConfigFile}
    (h : ofFields? root = some config) : ¬ Mistyped root := by
  obtain ⟨-, hd, hl⟩ := ofFields?_eq_some_iff.mp h
  intro hmistyped
  cases hmistyped with
  | grammarScopes hds ht hkind =>
    obtain ⟨-, scopes, hscopes, -⟩ := hds.settings_iff.mp ⟨_, hd, rfl⟩
    obtain ⟨ss, -, hss⟩ := Option.map_eq_some_iff.mp (hscopes.symm.trans ht)
    exact hkind ss hss.symm
  | runOnSave hds ht hkind =>
    obtain ⟨-, -, -, runOnSave, hrun, -⟩ := hds.settings_iff.mp ⟨_, hd, rfl⟩
    obtain ⟨b, -, hb⟩ := Option.map_eq_some_iff.mp (hrun.symm.trans ht)
    exact hkind b hb.symm
  | filter hls ht hkind =>
    obtain ⟨-, hfilter⟩ := hls.filter_iff.mp ⟨_, hl, rfl⟩
    obtain ⟨s, -, hs⟩ := Option.map_eq_some_iff.mp (hfilter.symm.trans ht)
    exact hkind s hs.symm
  | scalar hname ht hs =>
    rcases hname with rfl | rfl
    · simp [ht, optional, settings?_scalar hs] at hd
    · simp [ht, optional, logSettings?_scalar hs] at hl
  | rows hname ht =>
    rcases hname with rfl | rfl
    · simp [ht, optional, settings?] at hd
    · simp [ht, optional, logSettings?] at hl

end DiagnosticRelay.ConfigFile
