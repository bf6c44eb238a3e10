import DiagnosticRelay.CommandLine
import Mathlib.Tactic.Common

/-!
# What a configuration can change

Of all that is configured only the settings of the diagnostics have a part in how a command ends.
`Effective` says what these settings are for every state of the configuration file: those that a
usable file gives, and the default ones for a file that gives none, that cannot be used, or that is
not there. Two environments with the same effective settings cannot be told apart by the standard
output, the status or the error of any command.
-/

namespace DiagnosticRelay.CommandLine

/-- The settings that the configuration of an environment comes to. -/
inductive Effective : Environment → Settings → Prop where
  | homeless {e : Environment} (h : e.configPath = none) : Effective e .default
  | absent {e : Environment} (h : e.config = none) : Effective e .default
  | directory {e : Environment} (h : e.config = some .directory) : Effective e .default
  | unreadable {e : Environment} {message : String}
      (h : e.config = some (.unreadable message)) : Effective e .default
  | hidden {e : Environment} {message : String} (h : e.config = some (.hidden message)) :
      Effective e .default
  | notText {e : Environment} {content : ByteArray} (h : e.config = some (.bytes content))
      (hcontent : String.fromUTF8? content = none) : Effective e .default
  | rejected {e : Environment} {content : ByteArray} (h : e.config = some (.bytes content))
      {text : String} (hcontent : String.fromUTF8? content = some text)
      (htext : ConfigFile.ofToml? text = none) : Effective e .default
  | sectionless {e : Environment} {content : ByteArray} (h : e.config = some (.bytes content))
      {text : String} (hcontent : String.fromUTF8? content = some text) {c : ConfigFile}
      (htext : ConfigFile.ofToml? text = some c) (hc : c.diagnostics = none) : Effective e .default
  | given {e : Environment} {path : Path} (hpath : e.configPath = some path) {content : ByteArray}
      (h : e.config = some (.bytes content)) {text : String}
      (hcontent : String.fromUTF8? content = some text) {c : ConfigFile}
      (htext : ConfigFile.ofToml? text = some c) {s : Settings} (hc : c.diagnostics = some s) :
      Effective e s

/-- Without a home directory, whatever else is there does not count. -/
theorem settings_of_homeless {e : Environment} (h : e.configPath = none) :
    e.settings = .default := by
  simp only [Environment.settings, Environment.load, h]

/-- With a home directory, the configuration is what is found there. -/
theorem load_of_path {e : Environment} {path : Path} (h : e.configPath = some path) :
    e.load = ConfigFile.load path e.config := by
  simp only [Environment.load, h]

/-- The settings in effect are effective. -/
theorem effective_settings (e : Environment) : Effective e e.settings := by
  cases hpath : e.configPath with
  | none => exact settings_of_homeless hpath ▸ .homeless hpath
  | some path =>
    rw [Environment.settings, load_of_path hpath]
    cases hconfig : e.config with
    | none => exact .absent hconfig
    | some body =>
      cases body with
      | directory => exact .directory hconfig
      | unreadable => exact .unreadable hconfig
      | hidden => exact .hidden hconfig
      | bytes content =>
        rw [ConfigFile.load_bytes]
        cases hcontent : String.fromUTF8? content with
        | none => exact .notText hconfig hcontent
        | some text =>
          cases htext : ConfigFile.ofToml? text with
          | none =>
            simp only [htext]
            exact .rejected hconfig hcontent htext
          | some c =>
            cases hc : c.diagnostics with
            | none =>
              simp only [ConfigFile.settingsOrDefault, hc, htext]
              exact .sectionless hconfig hcontent htext hc
            | some s =>
              simp only [ConfigFile.settingsOrDefault, hc, htext]
              exact .given hpath hconfig hcontent htext hc

/-- No other settings are. -/
theorem Effective.eq_settings {e : Environment} {s : Settings} (h : Effective e s) :
    e.settings = s := by
  cases hpath : e.configPath with
  | none =>
    rw [settings_of_homeless hpath]
    cases h with
    | given hpath' => simp [hpath] at hpath'
    | _ => rfl
  | some path =>
    rw [Environment.settings, load_of_path hpath]
    cases h with
    | homeless h => simp [hpath] at h
    | absent h => simp only [h, ConfigFile.load]
    | directory h =>
      rw [h]
      rfl
    | unreadable h =>
      rw [h]
      rfl
    | hidden h =>
      rw [h]
      rfl
    | notText h hcontent => simp only [h, ConfigFile.load_bytes, hcontent]
    | rejected h hcontent htext =>
      simp only [h, ConfigFile.load_bytes, hcontent, htext]
    | sectionless h hcontent htext hc =>
      simp only [h, ConfigFile.load_bytes, hcontent, htext,
        ConfigFile.settingsOrDefault, hc, Option.getD_none]
    | given _ h hcontent htext hc =>
      simp only [h, ConfigFile.load_bytes, hcontent, htext,
        ConfigFile.settingsOrDefault, hc, Option.getD_some]

/-- Every environment has effective settings, and only those in effect. -/
theorem effective_iff {e : Environment} {s : Settings} : Effective e s ↔ e.settings = s := by
  constructor
  · exact Effective.eq_settings
  · rintro rfl
    exact effective_settings e

/-- How a command ends depends on the settings in effect, and on nothing else of the environment. -/
theorem run_congr {e e' : Environment} (h : e.settings = e'.settings) (fs : FileSystem)
    (args : List String) : run e fs args = run e' fs args := by
  unfold run transcript
  cases parse args with
  | misuse => rfl
  | help lines => rfl
  | replay source results =>
    dsimp only
    rw [h]
    cases replay e'.settings fs source results <;> rfl

/-- With the same effective settings a command ends alike, whatever is logged. -/
theorem ending_eq_of_effective {e e' : Environment} {s : Settings} (h : Effective e s)
    (h' : Effective e' s) {Filter : Type} (language : FilterLanguage Filter) (fs : FileSystem)
    (args : List String) :
    (execute language e fs args).ending = (execute language e' fs args).ending :=
  run_congr ((effective_iff.mp h).trans (effective_iff.mp h').symm) fs args

/-- The bytes of a text are its encoding. -/
theorem fromUTF8?_toUTF8 (s : String) : String.fromUTF8? s.toUTF8 = some s := by
  have hvalid : s.toUTF8.IsValidUTF8 := s.isValidUTF8
  rw [String.fromUTF8?, dif_pos hvalid]
  rfl

/-- A language in which every text is a filter and a filter admits everything. -/
def talkative : FilterLanguage String := ⟨some, id, fun _ _ => true⟩

/-- A directory in place of the configuration file. -/
def misplaced : Environment := ⟨some ⟨"/home/c"⟩, some .directory, some "debug"⟩

/-- A configuration file that only has a filter for the log. -/
def filterOnly : Environment :=
  ⟨some ⟨"/home/c"⟩, some (.bytes "log.filter='warn'".toUTF8), none⟩

/-- Every file holds the same. -/
def sameResult : FileSystem := ⟨fun _ => .ok "[true]", .text⟩

theorem ending_eq_of_effective_filterOnly :
    misplaced.filter talkative ≠ filterOnly.filter talkative ∧
      (execute talkative misplaced sameResult ["replay", "a.m", "a.json"]).ending =
        (execute talkative filterOnly sameResult ["replay", "a.m", "a.json"]).ending := by
  have hparsed : ConfigFile.ofToml? "log.filter='warn'" = some ⟨none, some ⟨some "warn"⟩⟩ := by
    decide
  have hcontent := fromUTF8?_toUTF8 "log.filter='warn'"
  have hload : filterOnly.load = .ok (some ⟨none, some ⟨some "warn"⟩⟩) := by
    simp only [filterOnly, Environment.load, ConfigFile.load_bytes, hcontent,
      hparsed]
  constructor
  · have hvariable : misplaced.filter talkative = "debug" := rfl
    have hfile : filterOnly.configuredFilter = some "warn" := by
      simp only [Environment.configuredFilter, hload, ConfigFile.logFilter, Option.bind_some]
    have hunset : filterOnly.logVariable = none := rfl
    have hconfigured : filterOnly.filter talkative = "warn" := by
      simp only [Environment.filter, hfile, hunset, talkative, Option.bind_none, Option.getD_some]
    rw [hvariable, hconfigured]
    decide
  · exact ending_eq_of_effective (.directory rfl) (.sectionless rfl hcontent hparsed rfl) _ _ _

end DiagnosticRelay.CommandLine
