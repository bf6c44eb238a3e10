import DiagnosticRelay.CommandLine
import DiagnosticRelay.Proofs.Grouping
import DiagnosticRelay.Proofs.Json.Rendering

/-!
# What is written can be read back

Every notice is one line of the output, and the bytes of the output determine the notices: their
kinds, the spelling and order of their paths, and their messages in order. A line feed inside a
message is written as an escape, so it cannot be taken for the end of a line.
-/

namespace DiagnosticRelay

open Json CommandLine

/-! ## Values -/

theorem Position.toJson_inj {p q : Position} : p.toJson = q.toJson ↔ p = q := by
  obtain ⟨row, column⟩ := p
  obtain ⟨row', column'⟩ := q
  simp [Position.toJson, UInt32.toNat_inj]

theorem Span.toJson_inj {s t : Span} : s.toJson = t.toJson ↔ s = t := by
  obtain ⟨start, stop⟩ := s
  obtain ⟨start', stop'⟩ := t
  simp [Span.toJson, Position.toJson_inj]

theorem MessageKind.tag_inj {k l : MessageKind} : k.tag = l.tag ↔ k = l := by
  cases k <;> cases l <;> decide

theorem Message.toJson_injective : Function.Injective Message.toJson := by
  rintro ⟨provider, kind, ⟨path⟩, text, span⟩ ⟨provider', kind', ⟨path'⟩, text', span'⟩ h
  simp only [Message.toJson, Value.record.injEq, List.cons.injEq, Prod.mk.injEq,
    Value.text.injEq, MessageKind.tag_inj, Span.toJson_inj, true_and, and_true] at h
  obtain ⟨rfl, rfl, rfl, rfl, rfl⟩ := h
  rfl

theorem Update.toJson_injective : Function.Injective Update.toJson := by
  rintro ⟨files⟩ ⟨files'⟩ h
  have hentry : Function.Injective fun entry : Path × List Message =>
      (entry.1.text, Value.list (entry.2.map Message.toJson)) := by
    rintro ⟨⟨p⟩, ms⟩ ⟨⟨q⟩, ms'⟩ heq
    simp only [Prod.mk.injEq, Value.list.injEq] at heq
    obtain ⟨rfl, hms⟩ := heq
    rw [Message.toJson_injective.list_map hms]
  obtain rfl : files = files' := hentry.list_map (Value.record.inj h)
  rfl

theorem Notice.toJson_injective : Function.Injective Notice.toJson := by
  rintro (u | ⟨⟨paths⟩⟩) (v | ⟨⟨paths'⟩⟩) h
  · simp only [Notice.toJson, Value.record.injEq, List.cons.injEq, Prod.mk.injEq, true_and,
      and_true] at h
    rw [Update.toJson_injective h]
  · simp [Notice.toJson, Invalidation.fields] at h
  · simp [Notice.toJson, Invalidation.fields] at h
  · have htext : Function.Injective fun p : Path => Value.text p.text := by
      rintro ⟨p⟩ ⟨q⟩ heq
      obtain rfl : p = q := Value.text.inj heq
      rfl
    simp only [Notice.toJson, Invalidation.fields, Value.record.injEq, List.cons.injEq,
      Prod.mk.injEq, Value.list.injEq, true_and, and_true] at h
    obtain rfl : paths = paths' := htext.list_map h
    rfl

/-! ## Lines -/

/-- The characters of the output. -/
def written (ns : List Notice) : List Char := ns.flatMap fun n => n.toJson.render ++ ['\n']

theorem toList_join_linesOf (ns : List Notice) :
    (String.join ((linesOf ns).map fun line => line ++ "\n")).toList = written ns := by
  simp [String.toList_join, linesOf, written, Value.compact, List.flatMap_map]

/-- The notices can be read off one after the other. -/
theorem written_injective : Function.Injective written := by
  intro ns
  induction ns with
  | nil =>
    intro ns' h
    cases ns' with
    | nil => rfl
    | cons n ns' => simp [written] at h
  | cons n ns ih =>
    intro ns' h
    cases ns' with
    | nil => simp [written] at h
    | cons n' ns' =>
      have h : n.toJson.render ++ '\n' :: written ns = n'.toJson.render ++ '\n' :: written ns' := by
        simpa [written] using h
      obtain ⟨hn, hrest⟩ := n.toJson.told n'.toJson _ _ (noDigit_cons rfl _) (noDigit_cons rfl _) h
      rw [Notice.toJson_injective hn, ih (List.cons.inj hrest).2]

/-! ## Bytes -/

/-- The bytes of a text. -/
def utf8 (s : String) : List UInt8 := s.toUTF8.data.toList

theorem utf8_eq (s : String) : utf8 s = s.toList.flatMap String.utf8EncodeChar := by
  rw [utf8, String.toUTF8_eq_toByteArray, ← String.ofList_toList (s := s),
    String.toByteArray_ofList, String.toList_ofList, List.utf8Encode, List.toList_data_toByteArray]

theorem ofNat_ne_ten {n : Nat} (h : 128 ≤ n) (h' : n < 256) : (10 : UInt8) ≠ UInt8.ofNat n := by
  intro heq
  have hn := congrArg UInt8.toNat heq
  rw [UInt8.toNat_ofNat', Nat.mod_eq_of_lt h'] at hn
  have hten : UInt8.toNat 10 = 10 := rfl
  omega

/-- Only the line feed is encoded with its byte: all bytes of longer encodings are 128 and above. -/
theorem eq_newline_of_mem_utf8EncodeChar {c : Char} (h : 10 ∈ String.utf8EncodeChar c) :
    c = '\n' := by
  unfold String.utf8EncodeChar at h
  dsimp only at h
  split_ifs at h with hone htwo hthree
  · have hn := congrArg UInt8.toNat (List.mem_singleton.mp h)
    rw [UInt8.toNat_ofNat', Nat.mod_eq_of_lt (by omega)] at hn
    exact Char.ext (UInt32.toNat_inj.mp hn.symm)
  · simp only [List.mem_cons, List.not_mem_nil, or_false] at h
    rcases h with h | h <;> exact absurd h (ofNat_ne_ten (by omega) (by omega))
  · simp only [List.mem_cons, List.not_mem_nil, or_false] at h
    rcases h with h | h | h <;> exact absurd h (ofNat_ne_ten (by omega) (by omega))
  · simp only [List.mem_cons, List.not_mem_nil, or_false] at h
    rcases h with h | h | h | h <;> exact absurd h (ofNat_ne_ten (by omega) (by omega))

/-- The line of a notice has no byte that ends a line. -/
theorem newline_not_mem_utf8_compact (v : Value) : 10 ∉ utf8 v.compact := by
  intro h
  rw [utf8_eq, Value.compact, String.toList_ofList] at h
  obtain ⟨c, hc, hbyte⟩ := List.mem_flatMap.mp h
  rw [eq_newline_of_mem_utf8EncodeChar hbyte] at hc
  exact newline_not_mem_render v hc

theorem utf8_bytesOf (lines : List String) :
    (bytesOf lines).data.toList = lines.flatMap fun line => utf8 line ++ [10] := by
  have hbytes : (bytesOf lines).data.toList =
      utf8 (String.join (lines.map fun l => l ++ "\n")) := rfl
  rw [hbytes, utf8_eq, String.toList_join, List.flatMap_map, List.flatMap_assoc]
  congr 1
  funext line
  rw [String.toList_append, List.flatMap_append, utf8_eq]
  rfl

theorem bytesOf_linesOf_injective : Function.Injective fun ns => bytesOf (linesOf ns) := by
  intro ns ns' h
  have htext := String.toByteArray_inj.mp h
  apply written_injective
  rw [← toList_join_linesOf, ← toList_join_linesOf, htext]

/-! ## Updates -/

/-- Whether an update was built of messages. -/
def Notice.IsBuilt : Notice → Prop
  | .update u => ∃ ms, u = Update.ofMessages ms
  | .invalidation _ => True

/-- Distinct paths are spelled differently. -/
theorem Path.Distinct.nodup_text {ps : List Path} (h : Path.Distinct ps) :
    (ps.map Path.text).Nodup := by
  rw [List.nodup_iff_pairwise_ne, List.pairwise_map]
  refine h.imp fun {p q} hpq htext => hpq ?_
  obtain rfl : p = q := by
    obtain ⟨p⟩ := p
    obtain rfl : p = q.text := htext
    rfl
  exact Path.Same.refl p

/-- The output has one line for each notice, and no line feed but the one at its end; no record of
files repeats a key; and no other notices have the same output. -/
theorem bytesOf_linesOf_of_isBuilt {ns : List Notice} (h : ∀ n ∈ ns, n.IsBuilt) :
    (bytesOf (linesOf ns)).data.toList = (ns.flatMap fun n => utf8 n.toJson.compact ++ [10]) ∧
      (∀ n ∈ ns, 10 ∉ utf8 n.toJson.compact) ∧
      (∀ u, .update u ∈ ns → ∃ fields, u.toJson = .record fields ∧ (fields.map Prod.fst).Nodup) ∧
      ∀ ns', bytesOf (linesOf ns') = bytesOf (linesOf ns) → ns' = ns := by
  refine ⟨?_, fun n _ => newline_not_mem_utf8_compact n.toJson, ?_, ?_⟩
  · rw [utf8_bytesOf, linesOf, List.flatMap_map]
  · intro u hu
    obtain ⟨ms, rfl⟩ : ∃ ms, u = Update.ofMessages ms := h _ hu
    refine ⟨_, rfl, ?_⟩
    have hkeys := (Update.distinct_ofMessages ms).nodup_text
    rw [Update.paths, List.map_map] at hkeys
    rw [List.map_map]
    exact hkeys
  · intro ns' hbytes
    exact bytesOf_linesOf_injective hbytes

/-- A message with quotes, a backslash and line feeds in its text and its path. -/
def awkwardMessage (path : String) : Message :=
  ⟨"clang", .error, ⟨path⟩, "\"\\\n\"\x7d\n", .ofCoordinates 0 0 0 1⟩

/-- Two spellings of one path make one field, and the message's own spelling is not lost. -/
theorem bytesOf_linesOf_awkward :
    10 ∉ utf8 (Notice.update (.ofMessages [awkwardMessage "a//b\n"])).toJson.compact ∧
      (bytesOf (linesOf [.update (.ofMessages [awkwardMessage "a//b\n", awkwardMessage "a/b\n"])]) ≠
        bytesOf (linesOf [.update (.ofMessages [awkwardMessage "a//b\n"])])) := by
  have hbuilt : ∀ n ∈ [Notice.update (.ofMessages [awkwardMessage "a//b\n"])], n.IsBuilt := by
    intro n hn
    rw [List.mem_singleton.mp hn]
    exact ⟨_, rfl⟩
  obtain ⟨-, hline, -, hinjective⟩ := bytesOf_linesOf_of_isBuilt hbuilt
  refine ⟨hline _ List.mem_cons_self, fun hbytes => ?_⟩
  exact absurd (hinjective _ hbytes) (by decide)

end DiagnosticRelay
