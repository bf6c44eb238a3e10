import DiagnosticRelay.Json.Decoder

/-!
# Settings of the diagnostics

Which grammars are compiled, and whether saving a document compiles it again. Both may be left out
of a JSON record; a setting left out has the value it has in `Settings.default`.
-/

namespace DiagnosticRelay

structure Settings where
  grammarScopes : List String
  runOnSave : Bool
  deriving DecidableEq, Repr

namespace Settings

/-- The grammars a compiler for the C family can handle. -/
def defaultScopes : List String := ["source.c", "source.cpp", "source.objc", "source.objcpp"]

/-- The settings when nothing is configured. -/
def default : Settings := ⟨defaultScopes, true⟩

/-- Whether documents of a grammar are compiled on events. -/
def handles (s : Settings) (grammar : String) : Bool := s.grammarScopes.contains grammar

theorem handles_iff {s : Settings} {grammar : String} :
    s.handles grammar ↔ grammar ∈ s.grammarScopes := by
  simp [handles]

/-- The fields of the settings, as far as read. -/
structure Partial where
  grammarScopes : Option (List String)
  runOnSave : Option Bool

/-- The settings with defaults for the fields that have not been read. -/
def Partial.fill (p : Partial) : Settings :=
  ⟨p.grammarScopes.getD defaultScopes, p.runOnSave.getD true⟩

open Json in
def shape : Shape Partial Settings where
  name := "struct DiagnosticsConfig"
  fields := [
    ⟨"grammar_scopes", fun p => p.grammarScopes.isSome, fun p cs => do
      let (x, rest) ← list (textAs "a string") cs
      .ok ({ p with grammarScopes := some x }, rest), true⟩,
    ⟨"run_on_save", fun p => p.runOnSave.isSome, fun p cs => do
      let (b, rest) ← bool cs
      .ok ({ p with runOnSave := some b }, rest), true⟩]
  start := ⟨none, none⟩
  finish p := .ok p.fill

def ofJson (text : String) : Except Json.Error Settings := Json.decode shape.read text

end Settings

end DiagnosticRelay
