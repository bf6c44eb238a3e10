import DiagnosticRelay.Files
import DiagnosticRelay.Proofs.Grammar
import DiagnosticRelay.Proofs.Replay.ClosedForm

/-!
# The name of the file in its replay

Only a result without accurate flags brings the path of the document into a notice. Up to the first
of them a replay tells the same of two files that differ in their paths alone (`toldFor_congr`), and
the paths it tells of are those that the results report diagnostics in (`mem_of_mem_toldFor`).

So it does not matter what a path that is not a text is called, as long as the name is none of those
and has the extension that is shown: `nameBeside_garbled_notMem` and `grammar_nameBeside`.
-/

namespace DiagnosticRelay

/-! ## The name of a path beside others -/

namespace Path

/-- A name without dots has no extension. -/
theorem afterLastDot?_eq_none {name : List Char} (h : '.' ∉ name) :
    afterLastDot? name = none := by
  rw [Option.eq_none_iff_forall_ne_some]
  intro extension hextension
  obtain ⟨stem, -, rfl, -⟩ := afterLastDot?_eq_some_iff.mp hextension
  exact h (List.mem_append_right _ List.mem_cons_self)

/-- No name in a path is longer than the path. -/
theorem length_le_of_mem_components {p : Path} {letters : List Char}
    (h : .name letters ∈ p.components) : letters.length ≤ p.text.toList.length := by
  rcases List.mem_append.mp h with hfront | hinner
  · exact absurd rfl (front_ne_name hfront letters)
  · obtain ⟨piece, hpiece, hname⟩ := List.mem_filterMap.mp hinner
    unfold Component.ofPiece? at hname
    split at hname <;> cases hname
    exact Text.length_le_of_mem_pieces hpiece

end Path

namespace RealPath

theorem length_le_spelledLength {paths : List Path} {p : Path} (hp : p ∈ paths) :
    p.text.length ≤ spelledLength paths := by
  induction hp with
  | head => exact Nat.le_add_right _ _
  | tail _ _ ih => exact Nat.le_add_left_of_le ih

/-- The directory is one name, and a long one. -/
theorem inner_aside (others : List Path) : Path.inner (aside others).toList =
    [.name (List.replicate (spelledLength others + 1) 'x')] := by
  have hplain {c : Char} (hc : c ≠ 'x') : c ∉ List.replicate (spelledLength others + 1) 'x' :=
    fun hmem => hc (List.eq_of_mem_replicate hmem)
  have hname : Path.IsName (List.replicate (spelledLength others + 1) 'x') := by
    refine ⟨by simp, ?_, ?_, hplain (by decide)⟩ <;>
    · intro heq
      exact hplain (c := '.') (by decide) (heq ▸ List.mem_cons_self)
  have hpiece := (Path.ofPiece?_eq_name_iff hname.noSlash).mpr ⟨rfl, hname⟩
  have hcut := Path.inner_append_cons [] (List.replicate (spelledLength others + 1) 'x')
  rw [Path.inner_of_noSlash hname.noSlash, hpiece] at hcut
  rw [aside, String.toList_ofList]
  exact hcut

theorem inner_nameBeside (shown : Path) (others : List Path) :
    Path.inner ((garbled shown).nameBeside others).text.toList =
      .name (List.replicate (spelledLength others + 1) 'x') ::
        Path.inner shown.text.toList := by
  simp only [nameBeside, String.toList_append, List.append_assoc]
  refine (Path.inner_append_cons _ _).trans ?_
  rw [inner_aside]
  rfl

/-- A path that is not a text is the same as none of the others. -/
theorem not_same_nameBeside (shown : Path) {others : List Path} {p : Path} (hp : p ∈ others) :
    ¬ Path.Same ((garbled shown).nameBeside others) p := by
  intro hsame
  have hmem : .name (List.replicate (spelledLength others + 1) 'x') ∈ p.components := by
    rw [← show ((garbled shown).nameBeside others).components = p.components from hsame]
    refine List.mem_append_right _ ?_
    have hinner := inner_nameBeside shown others
    rw [Path.inner] at hinner
    rw [hinner]
    exact List.mem_cons_self
  have hlong := Path.length_le_of_mem_components hmem
  have hshort := length_le_spelledLength hp
  rw [List.length_replicate, String.length_toList] at hlong
  omega

theorem nameBeside_garbled_notMem (shown : Path) (others : List Path) :
    (garbled shown).nameBeside others ∉ others :=
  fun hmem => not_same_nameBeside shown hmem (Path.Same.refl _)

/-- A path that is not a text has the extension it is shown with. -/
theorem extension?_nameBeside (shown : Path) (others : List Path) :
    ((garbled shown).nameBeside others).extension? = shown.extension? := by
  have hlast (p : Path) (name : List Char) :
      p.fileName? = some name ↔ (Path.inner p.text.toList).getLast? = some (.name name) := by
    rw [Path.fileName?_eq_some_iff, Path.getLast?_inner_eq_name_iff]
  have hinner := inner_nameBeside shown others
  cases hshown : Path.inner shown.text.toList with
  | nil =>
    -- Nothing is shown but slashes and dots, so the name ends in the directory in front.
    have hnone : shown.fileName? = none := by
      rw [Option.eq_none_iff_forall_ne_some]
      intro name hname
      simp [hlast, hshown] at hname
    rw [hshown] at hinner
    have hname := (hlast ((garbled shown).nameBeside others) _).mpr (by rw [hinner]; rfl)
    have hdot : '.' ∉ List.replicate (spelledLength others + 1) 'x' :=
      fun hmem => absurd (List.eq_of_mem_replicate hmem) (by decide)
    rw [Path.extension?, Path.extension?, hnone, hname, Option.bind_some,
      Path.afterLastDot?_eq_none hdot, Option.bind_none]
  | cons c cs =>
    have hname : ((garbled shown).nameBeside others).fileName? = shown.fileName? := by
      ext name
      rw [hlast, hlast, hinner, hshown, List.getLast?_cons_cons]
    rw [Path.extension?, Path.extension?, hname]

theorem grammar_nameBeside (shown : Path) (others : List Path) :
    ((garbled shown).nameBeside others).grammar = shown.grammar := by
  rw [Path.grammar, Path.grammar, extension?_nameBeside]

end RealPath

/-! ## The paths in messages -/

/-- All paths in the update are among some. -/
def Update.Within (files : List Path) (u : Update) : Prop :=
  ∀ entry ∈ u.files, entry.1 ∈ files ∧ ∀ m ∈ entry.2, m.path ∈ files

/-- All paths in the notice are among some. -/
def Notice.Within (files : List Path) : Notice → Prop
  | .update u => u.Within files
  | .invalidation i => ∀ p ∈ i.paths, p ∈ files

variable {files : List Path}

theorem Update.within_empty : Update.empty.Within files := by
  intro entry hentry
  cases hentry

theorem Update.Within.push {u : Update} (h : u.Within files) {m : Message}
    (hm : m.path ∈ files) : (u.push m).Within files := by
  obtain ⟨entries⟩ := u
  show ∀ entry ∈ insert m entries, _
  have hentries : ∀ entry ∈ entries, _ := h
  induction entries with
  | nil =>
    intro entry hentry
    obtain rfl := List.mem_singleton.mp hentry
    exact ⟨hm, fun m' hm' => List.mem_singleton.mp hm' ▸ hm⟩
  | cons first entries ih =>
    obtain ⟨p, ms⟩ := first
    obtain ⟨⟨hp, hms⟩, hrest⟩ := List.forall_mem_cons.mp hentries
    unfold insert
    split
    · refine List.forall_mem_cons.mpr ⟨⟨hp, fun m' hm' => ?_⟩, hrest⟩
      rcases List.mem_append.mp hm' with hm' | hm'
      · exact hms m' hm'
      · exact List.mem_singleton.mp hm' ▸ hm
    · exact List.forall_mem_cons.mpr ⟨⟨hp, hms⟩, ih hrest hrest⟩

theorem Update.Within.mem_of_mem_paths {u : Update} (h : u.Within files) :
    ∀ p ∈ u.paths, p ∈ files := by
  intro p hp
  obtain ⟨entry, hentry, rfl⟩ := List.mem_map.mp hp
  exact (h entry hentry).1

/-- A notice has no path but those it is within. -/
theorem Notice.Within.mentions_eq_false {n : Notice} (h : n.Within files) {p : Path}
    (hp : p ∉ files) : n.mentions p = false := by
  rw [Bool.eq_false_iff]
  intro hmentions
  cases n with
  | update u =>
    simp only [mentions, List.any_eq_true, Bool.or_eq_true, decide_eq_true_eq] at hmentions
    obtain ⟨entry, hentry, rfl | ⟨m, hm, rfl⟩⟩ := hmentions
    · exact hp (h entry hentry).1
    · exact hp ((h entry hentry).2 m hm)
  | invalidation i => exact hp (h p (List.contains_iff_mem.mp hmentions))

theorem Diagnostic.path_of_message? {d : Diagnostic} {lines : LineLengths} {m : Message}
    (h : d.message? lines = .ok (some m)) : m.path = d.location.file := by
  unfold message? at h
  split at h
  · cases h
  · split_ifs at h
    cases h
    rfl

theorem Update.Within.addMessages {lines : LineLengths} {ds : List Diagnostic} {u v : Update}
    (hu : u.Within files) (hds : ∀ d ∈ ds, d.location.file ∈ files)
    (h : DiagnosticRelay.addMessages lines u ds = .ok v) : v.Within files := by
  induction ds generalizing u with
  | nil =>
    obtain rfl : u = v := Except.ok.inj h
    exact hu
  | cons d ds ih =>
    obtain ⟨hd, hds⟩ := List.forall_mem_cons.mp hds
    rw [DiagnosticRelay.addMessages] at h
    split at h
    · cases h
    · exact ih hu hds h
    · next m hm => exact ih (hu.push (Diagnostic.path_of_message? hm ▸ hd)) hds h

variable {r : CompileResult} {u : Update}

/-- What is made of a result with accurate flags does not depend on the document's path. -/
theorem messagesOf_of_accurateFlags (hr : r.accurateFlags = true) (path : Option Path)
    (lines : LineLengths) :
    messagesOf r path lines = addMessages lines .empty r.diagnostics := by
  simp only [messagesOf, hr, if_true]

theorem messagesOf_of_not_accurateFlags (hr : r.accurateFlags = false) (path : Path)
    (lines : LineLengths) :
    messagesOf r (some path) lines = .ok (.ofMessages [missingFlagsMessage path]) := by
  simp only [messagesOf, hr, Bool.false_eq_true, if_false]
  rfl

/-- The paths in an update for accurate flags are those with diagnostics. -/
theorem within_messagesOf (hr : r.accurateFlags = true)
    (hfiles : ∀ d ∈ r.diagnostics, d.location.file ∈ files) {path : Option Path}
    {lines : LineLengths} (h : messagesOf r path lines = .ok u) : u.Within files := by
  rw [messagesOf_of_accurateFlags hr] at h
  exact Update.within_empty.addMessages hfiles h

namespace Replay

variable {settings : Settings} {file file' : SourceFile} {paths : List Path}
  {rs : List CompileResult}

/-! ## Results in turn -/

theorem considered_subset (settings : Settings) (file : SourceFile) (rs : List CompileResult) :
    considered settings file rs ⊆ rs := by
  unfold considered
  split_ifs
  · exact List.Subset.refl rs
  · exact List.take_subset 1 rs
  · exact List.nil_subset rs

theorem considered_congr (h : file.grammar = file'.grammar) (rs : List CompileResult) :
    considered settings file rs = considered settings file' rs := by
  rw [considered, considered, h]

theorem toldFor_append (file : SourceFile) (paths : List Path) (rs rs' : List CompileResult) :
    toldFor file paths (rs ++ rs') =
      toldFor file paths rs ++ toldFor file (rs.foldl (pathsAfter file) paths) rs' := by
  induction rs generalizing paths with
  | nil => rfl
  | cons r rs ih => rw [List.cons_append, toldFor, toldFor, ih, List.append_assoc, List.foldl_cons]

/-! ## Results with accurate flags -/

theorem noticesFor_congr (hlines : file.lines = file'.lines) (hr : r.accurateFlags = true)
    (paths : List Path) : noticesFor file paths r = noticesFor file' paths r := by
  simp only [noticesFor, messagesOf_of_accurateFlags hr, hlines]

theorem pathsAfter_congr (hlines : file.lines = file'.lines) (hr : r.accurateFlags = true)
    (paths : List Path) : pathsAfter file paths r = pathsAfter file' paths r := by
  simp only [pathsAfter, messagesOf_of_accurateFlags hr, hlines]

/-- Files with the same lines are told of alike as long as all flags are accurate, and the same
paths carry messages then. -/
theorem toldFor_congr (hlines : file.lines = file'.lines)
    (hrs : ∀ r ∈ rs, r.accurateFlags = true) (paths : List Path) :
    toldFor file paths rs = toldFor file' paths rs ∧
      rs.foldl (pathsAfter file) paths = rs.foldl (pathsAfter file') paths := by
  induction rs generalizing paths with
  | nil => exact ⟨rfl, rfl⟩
  | cons r rs ih =>
    obtain ⟨hr, hrs⟩ := List.forall_mem_cons.mp hrs
    rw [toldFor, toldFor, List.foldl_cons, List.foldl_cons, noticesFor_congr hlines hr,
      pathsAfter_congr hlines hr]
    obtain ⟨htold, hpaths⟩ := ih hrs (pathsAfter file' paths r)
    exact ⟨congrArg _ htold, hpaths⟩

theorem within_clearing (hpaths : ∀ p ∈ paths, p ∈ files) :
    ∀ n ∈ if paths = [] then [] else [Notice.invalidation ⟨paths⟩], n.Within files := by
  split_ifs
  · exact nofun
  · exact fun n hn => List.mem_singleton.mp hn ▸ hpaths

/-- A result with accurate flags brings in no path but those of its diagnostics. -/
theorem within_noticesFor (file : SourceFile) (hr : r.accurateFlags = true)
    (hfiles : ∀ d ∈ r.diagnostics, d.location.file ∈ files) (hpaths : ∀ p ∈ paths, p ∈ files) :
    (∀ n ∈ noticesFor file paths r, n.Within files) ∧ ∀ p ∈ pathsAfter file paths r, p ∈ files := by
  unfold noticesFor pathsAfter
  cases hu : messagesOf r (some file.path) file.lines with
  | error e => exact ⟨nofun, hpaths⟩
  | ok u =>
    have hwithin := within_messagesOf hr hfiles hu
    refine ⟨List.forall_mem_append.mpr ⟨within_clearing hpaths, ?_⟩, hwithin.mem_of_mem_paths⟩
    exact fun n hn => List.mem_singleton.mp hn ▸ hwithin

/-- What is told of results with accurate flags has no path but those of their diagnostics. -/
theorem within_toldFor (file : SourceFile) (hrs : ∀ r ∈ rs, r.accurateFlags = true)
    (hfiles : ∀ r ∈ rs, ∀ d ∈ r.diagnostics, d.location.file ∈ files)
    (hpaths : ∀ p ∈ paths, p ∈ files) :
    (∀ n ∈ toldFor file paths rs, n.Within files) ∧
      ∀ p ∈ rs.foldl (pathsAfter file) paths, p ∈ files := by
  induction rs generalizing paths with
  | nil => exact ⟨nofun, hpaths⟩
  | cons r rs ih =>
    obtain ⟨hr, hrs⟩ := List.forall_mem_cons.mp hrs
    obtain ⟨hfile, hfiles⟩ := List.forall_mem_cons.mp hfiles
    obtain ⟨hnotices, hafter⟩ := within_noticesFor file hr hfile hpaths
    obtain ⟨htold, hlast⟩ := ih hrs hfiles hafter
    exact ⟨List.forall_mem_append.mpr ⟨hnotices, htold⟩, hlast⟩

/-! ## The first result without -/

/-- What the listeners are told for results and, if a further one has messages, before its
update. -/
def toldUpTo (file : SourceFile) (rs : List CompileResult) : List Notice :=
  let paths := rs.foldl (pathsAfter file) []
  toldFor file [] rs ++ if paths = [] then [] else [.invalidation ⟨paths⟩]

/-- A result without accurate flags puts a warning on the file. -/
theorem toldFor_append_cons (hr : r.accurateFlags = false) (file : SourceFile)
    (front back : List CompileResult) :
    ∃ after, toldFor file [] (front ++ r :: back) = toldUpTo file front ++
      .update (.ofMessages [missingFlagsMessage file.path]) :: after := by
  refine ⟨toldFor file (pathsAfter file (front.foldl (pathsAfter file) []) r) back, ?_⟩
  rw [toldFor_append, toldFor, noticesFor, messagesOf_of_not_accurateFlags hr]
  simp only [toldUpTo, List.append_assoc, List.singleton_append]

theorem toldUpTo_congr (hlines : file.lines = file'.lines)
    (hrs : ∀ r ∈ rs, r.accurateFlags = true) : toldUpTo file rs = toldUpTo file' rs := by
  obtain ⟨htold, hpaths⟩ := toldFor_congr hlines hrs []
  rw [toldUpTo, toldUpTo, htold, hpaths]

theorem within_toldUpTo (file : SourceFile) (hrs : ∀ r ∈ rs, r.accurateFlags = true)
    (hfiles : ∀ r ∈ rs, ∀ d ∈ r.diagnostics, d.location.file ∈ files) :
    ∀ n ∈ toldUpTo file rs, n.Within files := by
  obtain ⟨htold, hpaths⟩ := within_toldFor file hrs hfiles (List.forall_mem_nil _)
  exact List.forall_mem_append.mpr ⟨htold, within_clearing hpaths⟩

end Replay

end DiagnosticRelay
