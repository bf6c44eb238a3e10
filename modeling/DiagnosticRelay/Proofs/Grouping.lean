import DiagnosticRelay.Proofs.Spellings
import Mathlib.Data.List.Induction

/-!
# Grouping

An update that is built message by message groups the messages by file. `groupsOf` says what the
groups are without building them up: one for every path, in the order in which the paths come first
and in the spelling they come first in, each with the messages of its path in the order they came.

A message may join a file under another spelling than its own. So the look-up of a path comes first
(`messagesFor?_push`): it finds the same messages in whatever spelling it is asked, and the files of
an update can be read off what it finds.
-/

namespace DiagnosticRelay

namespace Path

/-- A path has a first spelling exactly if it occurs. -/
theorem exists_same_firstSpellings_iff {ps : List Path} {p : Path} :
    (∃ q ∈ firstSpellings ps, Same q p) ↔ ∃ q ∈ ps, Same q p := by
  induction ps with
  | nil => simp
  | cons r ps ih =>
    rw [firstSpellings_cons]
    constructor
    · rintro ⟨q, hq, hs⟩
      rcases List.mem_cons.mp hq with rfl | hq
      · exact ⟨q, List.mem_cons_self, hs⟩
      · obtain ⟨q', hq', hs'⟩ := ih.mp ⟨q, (List.mem_filter.mp hq).1, hs⟩
        exact ⟨q', List.mem_cons_of_mem _ hq', hs'⟩
    · rintro ⟨q, hq, hs⟩
      by_cases hr : Same r p
      · exact ⟨r, List.mem_cons_self, hr⟩
      · have hq : q ∈ ps := (List.mem_cons.mp hq).resolve_left fun heq => hr (heq ▸ hs)
        obtain ⟨q', hq', hs'⟩ := ih.mpr ⟨q, hq, hs⟩
        refine ⟨q', List.mem_cons_of_mem _ (List.mem_filter.mpr ⟨hq', ?_⟩), hs'⟩
        exact decide_eq_true fun hrq => hr (hrq.trans hs')

/-- A path that comes last is a first spelling if it has not come before. -/
theorem firstSpellings_append_singleton (ps : List Path) (p : Path) :
    firstSpellings (ps ++ [p]) = if ∃ q ∈ firstSpellings ps, Same q p then firstSpellings ps
      else firstSpellings ps ++ [p] := by
  simp only [exists_same_firstSpellings_iff]
  induction ps with
  | nil => rfl
  | cons r ps ih =>
    rw [List.cons_append, firstSpellings_cons, firstSpellings_cons, ih]
    by_cases hps : ∃ q ∈ ps, Same q p
    · have hall : ∃ q ∈ r :: ps, Same q p := by
        obtain ⟨q, hq, hs⟩ := hps
        exact ⟨q, List.mem_cons_of_mem _ hq, hs⟩
      rw [if_pos hps, if_pos hall]
    · by_cases hr : Same r p
      · rw [if_neg hps, if_pos ⟨r, List.mem_cons_self, hr⟩]
        simp [hr]
      · have hnone : ¬ ∃ q ∈ r :: ps, Same q p := by
          rintro ⟨q, hq, hs⟩
          rcases List.mem_cons.mp hq with rfl | hq
          · exact hr hs
          · exact hps ⟨q, hq, hs⟩
        rw [if_neg hps, if_neg hnone]
        simp [hr]

end Path

/-- The messages of a path, in whatever spelling they have it. -/
def messagesOn (p : Path) (ms : List Message) : List Message :=
  ms.filter fun m => Path.Same m.path p

/-- The messages by path, with the first spelling of each path. -/
def groupsOf (ms : List Message) : List (Path × List Message) :=
  (Path.firstSpellings (ms.map Message.path)).map fun p => (p, messagesOn p ms)

theorem messagesOn_append_singleton (p : Path) (ms : List Message) (m : Message) :
    messagesOn p (ms ++ [m]) = messagesOn p ms ++ if Path.Same m.path p then [m] else [] := by
  by_cases h : Path.Same m.path p <;> simp [messagesOn, h]

namespace Update

/-- The paths of an update are the first spellings of those pushed. -/
theorem paths_ofMessages (ms : List Message) :
    (ofMessages ms).paths = Path.firstSpellings (ms.map Message.path) := by
  induction ms using List.reverseRecOn with
  | nil => rfl
  | append_singleton ms m ih =>
    have hpush : ((ofMessages ms).push m).paths = _ := paths_insert m (ofMessages ms).files
    have hpaths : (ofMessages ms).files.map Prod.fst = _ := ih
    rw [ofMessages_append_singleton, hpush, hpaths, List.map_append, List.map_singleton,
      Path.firstSpellings_append_singleton]

theorem distinct_ofMessages (ms : List Message) : Path.Distinct (ofMessages ms).paths := by
  rw [paths_ofMessages]
  exact Path.distinct_firstSpellings _

/-! ## What is found under a path -/

theorem messagesFor?_cons (p q : Path) (ms : List Message) (files : List (Path × List Message)) :
    (⟨(q, ms) :: files⟩ : Update).messagesFor? p =
      if Path.Same q p then some ms else (⟨files⟩ : Update).messagesFor? p := by
  by_cases h : Path.Same q p <;> simp [messagesFor?, h]

/-- A message that is pushed comes last among those of its path, in any spelling of it, and other
paths are left as they are. -/
theorem messagesFor?_push (u : Update) (m : Message) (p : Path) :
    (u.push m).messagesFor? p = if Path.Same m.path p
      then some ((u.messagesFor? p).getD [] ++ [m]) else u.messagesFor? p := by
  obtain ⟨files⟩ := u
  have hpush : (⟨files⟩ : Update).push m = ⟨insert m files⟩ := rfl
  rw [hpush]
  induction files with
  | nil =>
    rw [insert, messagesFor?_cons]
    rfl
  | cons entry files ih =>
    obtain ⟨q, ms⟩ := entry
    by_cases hq : Path.Same q m.path
    · -- The entry has the message's path, so it is the one found exactly for that path.
      have hiff : Path.Same q p ↔ Path.Same m.path p := ⟨hq.symm.trans, hq.trans⟩
      rw [insert, if_pos hq, messagesFor?_cons, messagesFor?_cons]
      by_cases hp : Path.Same m.path p <;> simp [hiff, hp]
    · have hp (hqp : Path.Same q p) : ¬ Path.Same m.path p := fun hmp => hq (hqp.trans hmp.symm)
      rw [insert, if_neg hq, messagesFor?_cons, messagesFor?_cons, ih (by rfl)]
      by_cases hqp : Path.Same q p
      · simp [hqp, hp hqp]
      · simp [hqp]

/-- Under a path the pushed messages of the path are found, and nothing if there are none. -/
theorem messagesFor?_ofMessages (ms : List Message) (p : Path) :
    (ofMessages ms).messagesFor? p =
      if messagesOn p ms = [] then none else some (messagesOn p ms) := by
  induction ms using List.reverseRecOn with
  | nil => rfl
  | append_singleton ms m ih =>
    rw [ofMessages_append_singleton, messagesFor?_push, ih, messagesOn_append_singleton]
    by_cases hp : Path.Same m.path p
    · by_cases hnil : messagesOn p ms = [] <;> simp [hp, hnil]
    · simp [hp]

/-- An update that lists every file once is what is found under its paths. -/
theorem files_eq {u : Update} (h : Path.Distinct u.paths) :
    u.files = u.paths.map fun p => (p, (u.messagesFor? p).getD []) := by
  obtain ⟨files⟩ := u
  induction files with
  | nil => rfl
  | cons entry files ih =>
    obtain ⟨q, ms⟩ := entry
    have hpaths : Path.Distinct (q :: Update.paths ⟨files⟩) := h
    obtain ⟨hq, hfiles⟩ := Path.distinct_cons.mp hpaths
    have hhead : (⟨(q, ms) :: files⟩ : Update).messagesFor? q = some ms := by
      rw [messagesFor?_cons, if_pos (Path.Same.refl q)]
    have htail : ∀ p ∈ Update.paths ⟨files⟩,
        (⟨(q, ms) :: files⟩ : Update).messagesFor? p = (⟨files⟩ : Update).messagesFor? p := by
      intro p hp
      rw [messagesFor?_cons, if_neg (hq p hp)]
    have hrest : files = (Update.paths ⟨files⟩).map fun p =>
        (p, ((⟨(q, ms) :: files⟩ : Update).messagesFor? p).getD []) := by
      refine (ih hfiles).trans (List.map_congr_left ?_)
      intro p hp
      rw [htail p hp]
    show (q, ms) :: files = (q, _) :: List.map _ (Update.paths ⟨files⟩)
    rw [← hrest, hhead]
    rfl

/-- The files of an update that is built of messages are the groups of the messages. -/
theorem files_ofMessages (ms : List Message) : (ofMessages ms).files = groupsOf ms := by
  rw [files_eq (distinct_ofMessages ms), paths_ofMessages, groupsOf]
  apply List.map_congr_left
  intro p _
  rw [messagesFor?_ofMessages]
  split
  · next hnil => rw [hnil]; rfl
  · rfl

/-! ## Counts -/

theorem perm_messages_insert (m : Message) (files : List (Path × List Message)) :
    ((insert m files).flatMap Prod.snd).Perm (files.flatMap Prod.snd ++ [m]) := by
  induction files with
  | nil => exact List.Perm.refl _
  | cons entry files ih =>
    obtain ⟨q, ms⟩ := entry
    unfold insert
    split
    · simp only [List.flatMap_cons, List.append_assoc]
      exact List.perm_append_comm.append_left ms
    · simp only [List.flatMap_cons, List.append_assoc]
      exact ih.append_left ms

/-- An update has the messages that were pushed, and no others. -/
theorem perm_messages_ofMessages (ms : List Message) : (ofMessages ms).messages.Perm ms := by
  induction ms using List.reverseRecOn with
  | nil => exact List.Perm.refl _
  | append_singleton ms m ih =>
    rw [ofMessages_append_singleton]
    exact (perm_messages_insert m _).trans (ih.append_right [m])

theorem countKind_ofMessages (ms : List Message) (kind : MessageKind) :
    (ofMessages ms).countKind kind = ms.countP fun m => m.kind = kind :=
  (perm_messages_ofMessages ms).countP_eq _

theorem totalCount_ofMessages (ms : List Message) : (ofMessages ms).totalCount = ms.length :=
  (perm_messages_ofMessages ms).length_eq

/-- Every message is a warning or an error. -/
theorem totalCount_eq (u : Update) : u.totalCount = u.errorCount + u.warningCount := by
  rw [totalCount, errorCount, warningCount, countKind, countKind]
  induction u.messages with
  | nil => rfl
  | cons m ms ih =>
    cases hkind : m.kind <;> simp [hkind, ih] <;> omega

/-! ## The grouping -/

/-- The update is a map from paths to the messages pushed, which keeps their order. -/
structure Groups (u : Update) (ms : List Message) : Prop where
  nonempty : ∀ entry ∈ u.files, entry.2 ≠ []
  distinct : Path.Distinct u.paths
  /-- Every spelling of a path finds the messages of the path, and only a path without any finds
  nothing. -/
  found : ∀ p, u.messagesFor? p = if messagesOn p ms = [] then none else some (messagesOn p ms)
  paths : u.paths = Path.firstSpellings (ms.map Message.path)
  isEmpty : u.isEmpty = true ↔ ms = []
  errors : u.errorCount = ms.countP fun m => m.kind = .error
  warnings : u.warningCount = ms.countP fun m => m.kind = .warning
  total : u.totalCount = u.errorCount + u.warningCount ∧ u.totalCount = ms.length

/-- Whatever messages are pushed, in whatever spellings of their paths, the update groups them. -/
theorem ofMessages_groups (ms : List Message) : (ofMessages ms).Groups ms where
  nonempty := by
    intro entry hentry
    rw [files_ofMessages, groupsOf] at hentry
    obtain ⟨p, hp, rfl⟩ := List.mem_map.mp hentry
    obtain ⟨q, hq, hsame⟩ := Path.exists_same_firstSpellings_iff.mp ⟨p, hp, Path.Same.refl p⟩
    obtain ⟨m, hm, rfl⟩ := List.mem_map.mp hq
    exact List.ne_nil_of_mem (List.mem_filter.mpr ⟨hm, decide_eq_true hsame⟩)
  distinct := distinct_ofMessages ms
  found := messagesFor?_ofMessages ms
  paths := paths_ofMessages ms
  isEmpty := by
    rw [isEmpty_iff, paths_ofMessages, Path.firstSpellings_eq_nil_iff, List.map_eq_nil_iff]
  errors := countKind_ofMessages ms .error
  warnings := countKind_ofMessages ms .warning
  total := ⟨totalCount_eq _, totalCount_ofMessages ms⟩

end Update

end DiagnosticRelay
