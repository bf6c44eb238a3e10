import DiagnosticRelay.Compile.Decoding
import DiagnosticRelay.Proofs.Json.Records

/-!
# Decoding is the inverse of rendering

Which trees a compile result is written as, and which trees of that kind are at fault: a number
outside its word, a required key that is missing, a key that is repeated. The decoder gives a result
exactly for the texts that render it, so it undoes every rendering, and none of the faults can make
it give another result.
-/

namespace DiagnosticRelay

open Json

/-! ## Range ends -/

namespace RangeEnd

def members (x : RangeEnd) : List Member :=
  [⟨"line", fun t => t = .whole x.line.toNat, False⟩,
    ⟨"column", fun t => t = .whole x.column.toNat, False⟩]

def RenderedAs (x : RangeEnd) : Tree → Prop := Renders x.members

def parts : List Part :=
  [⟨"line", True, OutOfRange 0 0xFFFFFFFF⟩, ⟨"column", True, OutOfRange 0 0xFFFFFFFF⟩]

def slots : List (Slot Partial RangeEnd) :=
  [⟨"line", UInt32, fun p => p.line, fun p n => { p with line := some n }, uint32,
      fun n t => t = .whole n.toNat, fun x => x.line, none⟩,
    ⟨"column", UInt32, fun p => p.column, fun p n => { p with column := some n }, uint32,
      fun n t => t = .whole n.toNat, fun x => x.column, none⟩]

theorem lawful : Lawful shape slots where
  fields := rfl
  reads := by simp [slots, reads_uint32]
  distinct := by decide
  get_put := by simp [slots]
  get_put_of_ne := by simp [slots]
  start := by simp [slots, shape]
  finish := by
    rintro ⟨line | line, column | column⟩ ⟨line', column'⟩ <;>
      simp [slots, shape, Slot.Agrees, Slot.MayLack, required, eq_comm]

theorem reads : Reads shape.read RenderedAs := lawful.reads_read

theorem not_flawed {x : RangeEnd} {t : Tree} (h : x.RenderedAs t) : ¬ Flawed parts t := by
  refine h.not_flawed (.cons ?_ (.cons ?_ .nil))
  · exact opposes_required fun _ => not_outOfRange_uint32 x.line
  · exact opposes_required fun _ => not_outOfRange_uint32 x.column

end RangeEnd

/-! ## Ranges -/

namespace SourceRange

def members (x : SourceRange) : List Member :=
  [⟨"start", x.start.RenderedAs, False⟩, ⟨"end", x.stop.RenderedAs, False⟩]

def RenderedAs (x : SourceRange) : Tree → Prop := Renders x.members

def parts : List Part :=
  [⟨"start", True, Flawed RangeEnd.parts⟩, ⟨"end", True, Flawed RangeEnd.parts⟩]

def slots : List (Slot Partial SourceRange) :=
  [⟨"start", RangeEnd, fun p => p.start, fun p x => { p with start := some x },
      RangeEnd.shape.read, RangeEnd.RenderedAs, fun x => x.start, none⟩,
    ⟨"end", RangeEnd, fun p => p.stop, fun p x => { p with stop := some x },
      RangeEnd.shape.read, RangeEnd.RenderedAs, fun x => x.stop, none⟩]

theorem lawful : Lawful shape slots where
  fields := rfl
  reads := by simp [slots, RangeEnd.reads]
  distinct := by decide
  get_put := by simp [slots]
  get_put_of_ne := by simp [slots]
  start := by simp [slots, shape]
  finish := by
    rintro ⟨start | start, stop | stop⟩ ⟨start', stop'⟩ <;>
      simp [slots, shape, Slot.Agrees, Slot.MayLack, required, eq_comm]

theorem reads : Reads shape.read RenderedAs := lawful.reads_read

theorem not_flawed {x : SourceRange} {t : Tree} (h : x.RenderedAs t) : ¬ Flawed parts t := by
  refine h.not_flawed (.cons ?_ (.cons ?_ .nil))
  · exact opposes_required fun _ => RangeEnd.not_flawed
  · exact opposes_required fun _ => RangeEnd.not_flawed

end SourceRange

/-! ## Locations -/

namespace Location

/-- A location without a column is in column 0. -/
def members (x : Location) : List Member :=
  [⟨"file", fun t => t = .text (some x.file.text.toList), False⟩,
    ⟨"line", fun t => t = .whole x.line.toInt, False⟩,
    ⟨"column", fun t => t = .whole x.column.toInt, x.column = 0⟩]

def RenderedAs (x : Location) : Tree → Prop := Renders x.members

def parts : List Part :=
  [⟨"file", True, fun _ => False⟩,
    ⟨"line", True, OutOfRange (-0x8000000000000000) 0x7FFFFFFFFFFFFFFF⟩,
    ⟨"column", False, OutOfRange (-0x8000000000000000) 0x7FFFFFFFFFFFFFFF⟩]

/-- A location's file is read as the text of its path. -/
def slots : List (Slot Partial Location) :=
  [⟨"file", String, fun p => p.file.map Path.text, fun p s => { p with file := some ⟨s⟩ },
      textAs "path string", fun s t => t = .text (some s.toList), fun x => x.file.text, none⟩,
    ⟨"line", Int64, fun p => p.line, fun p n => { p with line := some n }, int64,
      fun n t => t = .whole n.toInt, fun x => x.line, none⟩,
    ⟨"column", Int64, fun p => p.column, fun p n => { p with column := some n }, int64,
      fun n t => t = .whole n.toInt, fun x => x.column, some 0⟩]

theorem lawful : Lawful shape slots where
  fields := by simp [slots, shape, Slot.field]
  reads := by simp [slots, reads_textAs, reads_int64]
  distinct := by decide
  get_put := by simp [slots]
  get_put_of_ne := by simp [slots]
  start := by simp [slots, shape]
  finish := by
    rintro ⟨_ | ⟨⟨file⟩⟩, line | line, column | column⟩ ⟨⟨file'⟩, line', column'⟩ <;>
      simp [slots, shape, Slot.Agrees, Slot.MayLack, required, eq_comm]

theorem reads : Reads shape.read RenderedAs := lawful.reads_read

theorem not_flawed {x : Location} {t : Tree} (h : x.RenderedAs t) : ¬ Flawed parts t := by
  refine h.not_flawed (.cons ?_ (.cons ?_ (.cons ?_ .nil)))
  · exact opposes_required fun _ _ => id
  · exact opposes_required fun _ => not_outOfRange_int64 x.line
  · exact opposes_optional fun _ => not_outOfRange_int64 x.column

end Location

/-! ## Diagnostics -/

namespace Diagnostic

/-- A diagnostic without explicit ranges has none. -/
def members (x : Diagnostic) : List Member :=
  [⟨"severity", fun t => t = .whole x.severity.toNat, False⟩,
    ⟨"location", x.location.RenderedAs, False⟩,
    ⟨"ranges", OrNull (ListOf SourceRange.RenderedAs) x.ranges, x.ranges = none⟩,
    ⟨"spelling", fun t => t = .text (some x.spelling.toList), False⟩]

def RenderedAs (x : Diagnostic) : Tree → Prop := Renders x.members

def parts : List Part :=
  [⟨"severity", True, OutOfRange 0 0xFF⟩, ⟨"location", True, Flawed Location.parts⟩,
    ⟨"ranges", False, AnyFlawed (Flawed SourceRange.parts)⟩, ⟨"spelling", True, fun _ => False⟩]

def slots : List (Slot Partial Diagnostic) :=
  [⟨"severity", UInt8, fun p => p.severity, fun p n => { p with severity := some n }, uint8,
      fun n t => t = .whole n.toNat, fun x => x.severity, none⟩,
    ⟨"location", Location, fun p => p.location, fun p x => { p with location := some x },
      Location.shape.read, Location.RenderedAs, fun x => x.location, none⟩,
    ⟨"ranges", Option (List SourceRange), fun p => p.ranges,
      fun p x => { p with ranges := some x }, optional (list SourceRange.shape.read),
      OrNull (ListOf SourceRange.RenderedAs), fun x => x.ranges, some none⟩,
    ⟨"spelling", String, fun p => p.spelling, fun p s => { p with spelling := some s },
      textAs "a string", fun s t => t = .text (some s.toList), fun x => x.spelling, none⟩]

theorem reads_ranges :
    Reads (optional (list SourceRange.shape.read)) (OrNull (ListOf SourceRange.RenderedAs)) := by
  refine SourceRange.reads.list.optional ?_
  rintro _ ⟨_, ⟨⟩, _⟩

theorem lawful : Lawful shape slots where
  fields := rfl
  reads := by simp [slots, reads_uint8, Location.reads, reads_ranges, reads_textAs]
  distinct := by decide
  get_put := by simp [slots]
  get_put_of_ne := by simp [slots]
  start := by simp [slots, shape]
  finish := by
    rintro ⟨severity | severity, location | location, ranges | ranges, spelling | spelling⟩
        ⟨severity', location', ranges', spelling'⟩ <;>
      simp [slots, shape, Slot.Agrees, Slot.MayLack, required, eq_comm]

theorem reads : Reads shape.read RenderedAs := lawful.reads_read

theorem not_flawed_ranges {ranges : Option (List SourceRange)} {t : Tree}
    (h : OrNull (ListOf SourceRange.RenderedAs) ranges t) :
    ¬ AnyFlawed (Flawed SourceRange.parts) t := by
  cases ranges with
  | none =>
    obtain rfl := h
    rintro ⟨_, ⟨⟩, _⟩
  | some ranges =>
    have h : ListOf SourceRange.RenderedAs ranges t := h
    exact h.not_anyFlawed fun _ _ hrange => SourceRange.not_flawed hrange

theorem not_flawed {x : Diagnostic} {t : Tree} (h : x.RenderedAs t) : ¬ Flawed parts t := by
  refine h.not_flawed (.cons ?_ (.cons ?_ (.cons ?_ (.cons ?_ .nil))))
  · have hseverity := x.severity.toNat_lt
    exact opposes_required fun _ => not_outOfRange (by omega) (by omega)
  · exact opposes_required fun _ => Location.not_flawed
  · exact opposes_optional fun _ => not_flawed_ranges
  · exact opposes_required fun _ _ => id

end Diagnostic

/-! ## Results -/

namespace CompileResult

/-- A result without diagnostics has an empty list of them. -/
def members (x : CompileResult) : List Member :=
  [⟨"accurateFlags", fun t => t = .truth x.accurateFlags, False⟩,
    ⟨"diagnostics", ListOf Diagnostic.RenderedAs x.diagnostics, x.diagnostics = []⟩]

def RenderedAs (x : CompileResult) : Tree → Prop := Renders x.members

def parts : List Part :=
  [⟨"accurateFlags", True, fun _ => False⟩,
    ⟨"diagnostics", False, AnyFlawed (Flawed Diagnostic.parts)⟩]

def slots : List (Slot Partial CompileResult) :=
  [⟨"accurateFlags", Bool, fun p => p.accurateFlags, fun p b => { p with accurateFlags := some b },
      bool, fun b t => t = .truth b, fun x => x.accurateFlags, none⟩,
    ⟨"diagnostics", List Diagnostic, fun p => p.diagnostics,
      fun p x => { p with diagnostics := some x }, list Diagnostic.shape.read,
      ListOf Diagnostic.RenderedAs, fun x => x.diagnostics, some []⟩]

theorem lawful : Lawful shape slots where
  fields := rfl
  reads := by simp [slots, reads_bool, Diagnostic.reads.list]
  distinct := by decide
  get_put := by simp [slots]
  get_put_of_ne := by simp [slots]
  start := by simp [slots, shape]
  finish := by
    rintro ⟨flags | flags, diagnostics | diagnostics⟩ ⟨flags', diagnostics'⟩ <;>
      simp [slots, shape, Slot.Agrees, Slot.MayLack, required, eq_comm]

theorem reads : Reads shape.read RenderedAs := lawful.reads_read

theorem not_flawed {x : CompileResult} {t : Tree} (h : x.RenderedAs t) : ¬ Flawed parts t := by
  refine h.not_flawed (.cons ?_ (.cons ?_ .nil))
  · exact opposes_required fun _ _ => id
  · refine opposes_optional fun _ hdiagnostics => ?_
    exact hdiagnostics.not_anyFlawed fun _ _ hdiagnostic => Diagnostic.not_flawed hdiagnostic

/-- A text is decoded to exactly the results it renders, and a text at fault is refused. -/
theorem ofJson_of_text {t : Tree} {text : String} (h : t.Says text) :
    (∀ x, ofJson text = .ok x ↔ RenderedAs x t) ∧
      (Flawed parts t → ∃ e, ofJson text = .error e) := by
  have hdecode : ∀ x, ofJson text = .ok x ↔ RenderedAs x t := fun _ => reads.decode_eq_ok_iff h
  refine ⟨hdecode, fun hflawed => ?_⟩
  cases hresult : ofJson text with
  | error e => exact ⟨e, rfl⟩
  | ok x => exact absurd hflawed (not_flawed ((hdecode x).mp hresult))

/-! A result in both notations, with a key nobody knows, an escape and blanks, once with a line that
is too large. -/

theorem keyWritten_plain {key : List Char} (h : ∀ c ∈ key, Plain c) :
    KeyWritten (some key) ('"' :: (key ++ ['"', ':'])) :=
  ⟨_, _, _, ⟨key, rfl, spells_plain h⟩, Token.refl _, Token.refl _, by simp⟩

def mixedLocation (line : Int) : Tree :=
  .record [(some "line".toList, .whole line), (some "file".toList, .text (some ['a']))]

def mixedDiagnostic (line : Int) : Tree :=
  .list [.whole 3, mixedLocation line, .null, .text (some ['b'])]

def mixed (line : Int) : Tree :=
  .record [(some "accurateFlags".toList, .truth true),
    (some "x".toList, .list [.record [], .null]),
    (some "diagnostics".toList, .list [mixedDiagnostic line])]

theorem says_mixed {line : Int} {text : String}
    (h : text.toList = "\x7b\"accurateFlags\":true,\"x\":[\x7b\x7d,null],".toList ++
      ("\"diagnostics\": [[3,\x7b\"line\":".toList ++
        (decimal line ++ ",\"file\":\"\\u0061\"\x7d,null,\"b\"]]\x7d\n".toList))) :
    (mixed line).Says text := by
  have hunknown : (Tree.list [.record [], .null]).Written "[\x7b\x7d,null]".toList :=
    ⟨_, ⟨_, _, ⟨_, Token.refl _, Token.refl _⟩, ⟨_, _, Token.refl _, Token.refl _, Token.refl _⟩,
      rfl⟩, Token.refl _⟩
  have hletter : Quad '0' '0' '6' '1' 97 :=
    ⟨0, 0, 6, 1, by decide, by decide, by decide, by decide, rfl⟩
  have hfile : (Tree.text (some ['a'])).Written "\"\\u0061\"".toList :=
    ⟨_, ⟨"\\u0061".toList, rfl, .code hletter rfl rfl .nil⟩, Token.refl _⟩
  have hlocation : (mixedLocation line).Written
      ("\x7b\"line\":".toList ++ (decimal line ++ ",\"file\":\"\\u0061\"\x7d".toList)) :=
    ⟨_, ⟨_, _, _, keyWritten_plain (by simp [Plain]), Token.refl (decimal line),
      ⟨_, _, _, keyWritten_plain (by simp [Plain]), hfile, Token.refl _, Token.refl _⟩, rfl⟩,
      Token.refl _⟩
  have hspelling : (Tree.text (some ['b'])).Written "\"b\"".toList :=
    ⟨_, ⟨['b'], rfl, spells_plain (by simp [Plain])⟩, Token.refl _⟩
  have hdiagnostic : (mixedDiagnostic line).Written
      ("[3,".toList ++ (("\x7b\"line\":".toList ++ (decimal line ++
        ",\"file\":\"\\u0061\"\x7d".toList)) ++ ",null,\"b\"]".toList)) :=
    ⟨_, ⟨['3'], _, Token.refl (decimal 3), ⟨_, _, hlocation, ⟨_, _, Token.refl _,
      ⟨_, _, hspelling, Token.refl _, Token.refl _⟩, Token.refl _⟩, Token.refl _⟩, rfl⟩,
      Token.refl _⟩
  have hdiagnostics : (Tree.list [mixedDiagnostic line]).Written
      (" [".toList ++ (("[3,".toList ++ (("\x7b\"line\":".toList ++ (decimal line ++
        ",\"file\":\"\\u0061\"\x7d".toList)) ++ ",null,\"b\"]".toList)) ++ [']'])) :=
    ⟨_, ⟨_, _, hdiagnostic, Token.refl _, rfl⟩, [' '], by simp [Blank], rfl⟩
  refine ⟨_, ['\n'], ⟨_, ⟨_, _, _, keyWritten_plain (by simp [Plain]), Token.refl _,
    ⟨_, _, _, keyWritten_plain (by simp [Plain]), hunknown,
      ⟨_, _, _, keyWritten_plain (by simp [Plain]), hdiagnostics, Token.refl _, Token.refl _⟩,
      Token.refl _⟩, rfl⟩, Token.refl _⟩, by simp [Blank], ?_⟩
  rw [h]
  simp

theorem mixed_rendered :
    RenderedAs ⟨true, [⟨3, ⟨⟨"a"⟩, -1, 0⟩, none, "b"⟩]⟩ (mixed (-1)) := by
  have hlocation : Location.RenderedAs ⟨⟨"a"⟩, -1, 0⟩ (mixedLocation (-1)) := by
    refine ⟨by simp, ?_⟩
    simp only [Location.members, List.forall_mem_cons]
    refine ⟨?_, ?_, ?_, by simp⟩
    · rw [valuesOf_cons_of_ne (by decide), valuesOf_cons_self]
      rfl
    · rw [valuesOf_cons_self, valuesOf_cons_of_ne (by decide)]
      rfl
    · rw [valuesOf_cons_of_ne (by decide), valuesOf_cons_of_ne (by decide)]
      trivial
  have hdiagnostic : Diagnostic.RenderedAs ⟨3, ⟨⟨"a"⟩, -1, 0⟩, none, "b"⟩ (mixedDiagnostic (-1)) :=
    ⟨rfl, hlocation, rfl, rfl, rfl⟩
  refine ⟨by simp, ?_⟩
  simp only [members, List.forall_mem_cons]
  refine ⟨?_, ?_, by simp⟩
  · rw [valuesOf_cons_self, valuesOf_cons_of_ne (by decide), valuesOf_cons_of_ne (by decide)]
    rfl
  · rw [valuesOf_cons_of_ne (by decide), valuesOf_cons_of_ne (by decide), valuesOf_cons_self]
    exact ⟨_, rfl, .cons hdiagnostic .nil⟩

theorem mixed_flawed : Flawed parts (mixed 9223372036854775808) := by
  have hlocation : Flawed Location.parts (mixedLocation 9223372036854775808) := by
    refine ⟨_, .tail _ (.head _), .inr (.inr ⟨.whole 9223372036854775808, ?_, _, rfl, by decide⟩)⟩
    rw [valuesOf_cons_self]
    exact List.mem_cons_self
  have hdiagnostic : Flawed Diagnostic.parts (mixedDiagnostic 9223372036854775808) :=
    ⟨(_, _), .tail _ (.head _), hlocation⟩
  refine ⟨_, .tail _ (.head _),
    .inr (.inr ⟨.list [_], ?_, _, rfl, _, List.mem_cons_self, hdiagnostic⟩)⟩
  rw [valuesOf_cons_of_ne (by decide), valuesOf_cons_of_ne (by decide), valuesOf_cons_self]
  exact List.mem_cons_self

theorem ofJson_of_text_mixed :
    ofJson ("\x7b\"accurateFlags\":true,\"x\":[\x7b\x7d,null],\"diagnostics\": [[3," ++
        "\x7b\"line\":-1,\"file\":\"\\u0061\"\x7d,null,\"b\"]]\x7d\n") =
        .ok ⟨true, [⟨3, ⟨⟨"a"⟩, -1, 0⟩, none, "b"⟩]⟩ ∧
      ∃ e, ofJson ("\x7b\"accurateFlags\":true,\"x\":[\x7b\x7d,null],\"diagnostics\": [[3," ++
        "\x7b\"line\":9223372036854775808,\"file\":\"\\u0061\"\x7d,null,\"b\"]]\x7d\n") =
        .error e := by
  constructor
  · exact ((ofJson_of_text (says_mixed rfl)).1 _).mpr mixed_rendered
  · exact (ofJson_of_text (says_mixed rfl)).2 mixed_flawed

end CompileResult

end DiagnosticRelay
