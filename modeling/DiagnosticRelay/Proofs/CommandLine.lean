import DiagnosticRelay.CommandLine
import DiagnosticRelay.Proofs.Json.Scanning
import DiagnosticRelay.Proofs.Replay.Naming
import Mathlib.Data.List.Forall2

/-!
# All or nothing, or all up to a path

A replay of files that can all be used prints the notices of the replay and has status 0. If one of
them cannot be used there is a first fault, in the order in which the files are given: then nothing
is printed, the status is 1, and the error names the file and the step that failed.

Between the two there is a source file whose path is not a text. Its path comes up with the first
result that is compiled from and has no accurate flags. What was told before is printed, and the
beginning of the notice in question, and the status is 1. `ReplayEnds` lists the cases, and
`run_eq_iff_of_names` says that they are all there is, whatever the environment.
-/

namespace DiagnosticRelay.CommandLine

open Json (bind_eq_ok_iff)

/-! ## Well-formed command lines -/

/-- An argument that names a file where options may stand. -/
def IsName (arg : String) : Prop := arg ≠ "" ∧ (arg = "-" ∨ ¬ arg.startsWith "-")

/-- Arguments that name files: where options may stand and, behind two dashes, where they may not.
-/
inductive Names : List String → List Path → Prop where
  | nil : Names [] []
  | name {arg : String} (h : IsName arg) {args : List String} {paths : List Path}
      (hrest : Names args paths) : Names (arg :: args) (⟨arg⟩ :: paths)
  | dashes {args : List String} (h : ∀ arg ∈ args, arg ≠ "") :
      Names ("--" :: args) (args.map Path.mk)

/-- The command line asks for a replay of at least one result. -/
def AsksForReplay (args : List String) (source : Path) (results : List Path) : Prop :=
  results ≠ [] ∧ ∃ names, args = "replay" :: names ∧ Names names (source :: results)

theorem isOption_eq_true_iff {arg : String} :
    isOption arg = true ↔ arg.startsWith "-" = true ∧ arg ≠ "-" := by
  simp [isOption]

theorem isOption_dashes : isOption "--" = true := by
  rw [isOption_eq_true_iff, String.startsWith_string_iff]
  decide

/-- Asking for help is an option. -/
theorem isOption_of_asksForHelp {arg : String} (h : asksForHelp arg = true) :
    isOption arg = true := by
  rw [isOption_eq_true_iff, String.startsWith_string_iff]
  simp only [asksForHelp, Bool.or_eq_true, decide_eq_true_eq, String.startsWith_string_iff] at h
  rcases h with rfl | h
  · decide
  · refine ⟨List.IsPrefix.trans (by decide) h, ?_⟩
    rintro rfl
    exact absurd h (by decide)

theorem isName_iff {arg : String} : IsName arg ↔ arg.isEmpty = false ∧ isOption arg = false := by
  rw [← Bool.not_eq_true (isOption arg), isOption_eq_true_iff, IsName]
  simp only [String.isEmpty_eq_false_iff]
  tauto

/-- Behind two dashes every argument names a file. -/
theorem replayFiles_true_eq_ok_iff {args : List String} {paths : List Path} :
    replayFiles true args = .ok paths ↔ (∀ arg ∈ args, arg ≠ "") ∧ paths = args.map Path.mk := by
  induction args generalizing paths with
  | nil => simp [replayFiles, eq_comm]
  | cons arg args ih =>
    by_cases hempty : arg = ""
    · simp [replayFiles, hempty]
    · simp only [replayFiles, Bool.not_true, Bool.false_and, Bool.false_eq_true, if_false,
        String.isEmpty_iff, hempty, bind_eq_ok_iff, ih]
      constructor
      · rintro ⟨_, ⟨hargs, rfl⟩, hpaths⟩
        cases hpaths
        exact ⟨List.forall_mem_cons.mpr ⟨hempty, hargs⟩, rfl⟩
      · rintro ⟨hargs, rfl⟩
        exact ⟨_, ⟨(List.forall_mem_cons.mp hargs).2, rfl⟩, rfl⟩

theorem not_isName_dashes : ¬ IsName "--" := by
  rw [isName_iff, isOption_dashes]
  simp

theorem replayFiles_false_cons_of_isName {arg : String} (h : IsName arg) (args : List String) :
    replayFiles false (arg :: args) =
      replayFiles false args >>= fun paths => .ok (⟨arg⟩ :: paths) := by
  obtain ⟨hempty, hoption⟩ := isName_iff.mp h
  have hhelp : asksForHelp arg = false :=
    Bool.eq_false_iff.mpr fun hhelp => by simp [isOption_of_asksForHelp hhelp] at hoption
  have hdashes : arg ≠ "--" := by
    rintro rfl
    exact not_isName_dashes h
  simp [replayFiles, hempty, hoption, hhelp, hdashes]

theorem replayFiles_false_cons_of_not_isName {arg : String} (h : ¬ IsName arg) (hne : arg ≠ "--")
    (args : List String) (paths : List Path) : replayFiles false (arg :: args) ≠ .ok paths := by
  intro hok
  simp only [replayFiles, Bool.not_false, Bool.true_and, decide_eq_true_eq, if_neg hne] at hok
  split_ifs at hok with hhelp hoption hempty
  exact h (isName_iff.mpr ⟨by simpa using hempty, by simpa using hoption⟩)

/-- Where options may stand, the arguments are accepted exactly when they name files. -/
theorem replayFiles_false_eq_ok_iff {args : List String} {paths : List Path} :
    replayFiles false args = .ok paths ↔ Names args paths := by
  induction args generalizing paths with
  | nil =>
    constructor
    · rintro ⟨⟩
      exact .nil
    · rintro ⟨⟩
      rfl
  | cons arg args ih =>
    by_cases hdashes : arg = "--"
    · subst hdashes
      have hskip : replayFiles false ("--" :: args) = replayFiles true args := by
        simp [replayFiles]
      rw [hskip, replayFiles_true_eq_ok_iff]
      constructor
      · rintro ⟨hargs, rfl⟩
        exact .dashes hargs
      · intro hnames
        cases hnames with
        | name h => exact absurd h not_isName_dashes
        | dashes hargs => exact ⟨hargs, rfl⟩
    · by_cases hname : IsName arg
      · rw [replayFiles_false_cons_of_isName hname, bind_eq_ok_iff]
        constructor
        · rintro ⟨rest, hrest, hok⟩
          cases hok
          exact .name hname (ih.mp hrest)
        · intro hnames
          cases hnames with
          | name _ hrest => exact ⟨_, ih.mpr hrest, rfl⟩
          | dashes => exact absurd rfl hdashes
      · refine iff_of_false (replayFiles_false_cons_of_not_isName hname hdashes args paths) ?_
        intro hnames
        cases hnames with
        | name h => exact hname h
        | dashes => exact hdashes rfl

/-- Arguments that do not name files are misuse or ask for help. -/
theorem replayFiles_ne_error_replay {isPlain : Bool} {args : List String} {source : Path}
    {results : List Path} : replayFiles isPlain args ≠ .error (.replay source results) := by
  induction args generalizing isPlain with
  | nil => nofun
  | cons arg args ih =>
    intro h
    unfold replayFiles at h
    split_ifs at h
    · exact ih h
    iterate 3 cases h
    · cases hrest : replayFiles isPlain args with
      | ok paths => simp [hrest] at h
      | error request =>
        rw [hrest] at h
        cases h
        exact ih hrest

/-- The command line is understood as a replay exactly when it asks for one. -/
theorem parse_eq_replay_iff {args : List String} {source : Path} {results : List Path} :
    parse args = .replay source results ↔ AsksForReplay args source results := by
  constructor
  · intro h
    unfold parse at h
    split at h
    · next names =>
      unfold parseReplay at h
      split at h
      · next hfiles => exact absurd (h ▸ hfiles) replayFiles_ne_error_replay
      · next hfiles =>
        cases h
        exact ⟨nofun, names, rfl, replayFiles_false_eq_ok_iff.mp hfiles⟩
      · cases h
    · cases h
    · cases h
    · cases h
    · split_ifs at h
    · cases h
  · rintro ⟨hne, names, rfl, hnames⟩
    obtain ⟨result, results, rfl⟩ := List.exists_cons_of_ne_nil hne
    have hparse : parse ("replay" :: names) = parseReplay names := rfl
    rw [hparse, parseReplay, replayFiles_false_eq_ok_iff.mpr hnames]

/-! ## Files -/

/-- A file holds a result. -/
def Holds (fs : FileSystem) (path : Path) (r : CompileResult) : Prop :=
  ∃ json, fs.read path = .ok json ∧ CompileResult.ofJson json = .ok r

/-- The first file that cannot be used, in the order in which the files are given, with the error
for it. -/
inductive FirstFault (fs : FileSystem) (source : Path) (results : List Path) : String → Prop where
  | source {cause : ReadFailure} (h : fs.read source = .error cause) :
      FirstFault fs source results ("failed to read source file " ++ source.text)
  | unreadable {text : String} (hsource : fs.read source = .ok text) {front back : List Path}
      {path : Path} (hresults : results = front ++ path :: back)
      (hfront : ∀ p ∈ front, ∃ r, Holds fs p r) {cause : ReadFailure}
      (h : fs.read path = .error cause) :
      FirstFault fs source results ("failed to read compile result " ++ path.text)
  | undecodable {text : String} (hsource : fs.read source = .ok text) {front back : List Path}
      {path : Path} (hresults : results = front ++ path :: back)
      (hfront : ∀ p ∈ front, ∃ r, Holds fs p r) {json : String} (hjson : fs.read path = .ok json)
      {e : Json.Error} (h : CompileResult.ofJson json = .error e) :
      FirstFault fs source results ("failed to parse compile result " ++ path.text)

theorem loadResult_eq_ok_iff {fs : FileSystem} {path : Path} {r : CompileResult} :
    loadResult fs path = .ok r ↔ Holds fs path r := by
  unfold loadResult Holds
  cases fs.read path with
  | error cause => simp
  | ok json =>
    simp only [Except.ok.injEq, exists_eq_left']
    cases CompileResult.ofJson json <;> simp

/-- The results are loaded when every file holds one. -/
theorem loadResults_eq_ok_iff {fs : FileSystem} {paths : List Path} {rs : List CompileResult} :
    loadResults fs paths = .ok rs ↔ List.Forall₂ (Holds fs) paths rs := by
  induction paths generalizing rs with
  | nil => simp [loadResults, List.forall₂_nil_left_iff, eq_comm]
  | cons path paths ih =>
    rw [List.forall₂_cons_left_iff, loadResults]
    cases hfirst : loadResult fs path with
    | error e =>
      refine iff_of_false nofun ?_
      rintro ⟨r, _, hr, -⟩
      rw [loadResult_eq_ok_iff.mpr hr] at hfirst
      cases hfirst
    | ok r =>
      have hholds (r' : CompileResult) : Holds fs path r' ↔ r' = r := by
        rw [← loadResult_eq_ok_iff, hfirst, Except.ok.injEq, eq_comm]
      simp only [hholds, ← ih]
      cases hrest : loadResults fs paths with
      | error e => simp
      | ok rs' => simp [eq_comm]

/-- Loading results stops at the first file that holds none. -/
theorem loadResults_append_cons {fs : FileSystem} {front back : List Path} {path : Path}
    {e : InputError} (hfront : ∀ p ∈ front, ∃ r, Holds fs p r)
    (h : loadResult fs path = .error e) :
    loadResults fs (front ++ path :: back) = .error e := by
  induction front with
  | nil => rw [List.nil_append, loadResults, h]
  | cons p front ih =>
    obtain ⟨r, hr⟩ := hfront p List.mem_cons_self
    have htail := ih fun q hq => hfront q (List.mem_cons_of_mem _ hq)
    rw [List.cons_append, loadResults, loadResult_eq_ok_iff.mpr hr, htail]

/-- When results cannot be loaded, one of the files is the first that holds none. -/
theorem exists_first_of_loadResults {fs : FileSystem} {paths : List Path} {e : InputError}
    (h : loadResults fs paths = .error e) :
    ∃ front path back, paths = front ++ path :: back ∧ (∀ p ∈ front, ∃ r, Holds fs p r) ∧
      loadResult fs path = .error e := by
  induction paths with
  | nil => cases h
  | cons path paths ih =>
    rw [loadResults] at h
    cases hfirst : loadResult fs path with
    | error e' =>
      rw [hfirst] at h
      cases h
      exact ⟨[], path, paths, rfl, nofun, hfirst⟩
    | ok r =>
      rw [hfirst] at h
      cases hrest : loadResults fs paths with
      | ok rs =>
        rw [hrest] at h
        cases h
      | error e' =>
        rw [hrest] at h
        cases h
        obtain ⟨front, bad, back, rfl, hfront, hbad⟩ := ih hrest
        refine ⟨path :: front, bad, back, rfl, ?_, hbad⟩
        exact List.forall_mem_cons.mpr ⟨⟨r, loadResult_eq_ok_iff.mp hfirst⟩, hfront⟩

/-! ## Writing -/

/-- Notices that do not stop the writing are written before all others. -/
theorem write_append {stops : Notice → Bool} {front : List Notice}
    (hfront : ∀ n ∈ front, stops n = false) (back : List Notice) :
    write stops (front ++ back) =
      ⟨linesOf front ++ (write stops back).lines, (write stops back).stub⟩ := by
  induction front with
  | nil => rfl
  | cons n front ih =>
    obtain ⟨hn, hfront⟩ := List.forall_mem_cons.mp hfront
    rw [List.cons_append, write, if_neg (by simp [hn]), ih hfront]
    rfl

theorem write_of_not_stops {stops : Notice → Bool} {ns : List Notice}
    (h : ∀ n ∈ ns, stops n = false) : write stops ns = ⟨linesOf ns, none⟩ := by
  have happend := write_append h []
  rw [List.append_nil] at happend
  rw [happend, write, List.append_nil]

/-- The first notice that stops the writing leaves its beginning. -/
theorem write_append_cons {stops : Notice → Bool} {front : List Notice}
    (hfront : ∀ n ∈ front, stops n = false) {n : Notice} (hn : stops n = true)
    (back : List Notice) :
    write stops (front ++ n :: back) = ⟨linesOf front, some n.opening⟩ := by
  rw [write_append hfront, write, if_pos hn, List.append_nil]

/-- The opening of a notice is its text up to the first path. -/
theorem opening_prefix_update (p : Path) (ms : List Message) (files : List (Path × List Message)) :
    (Notice.update ⟨(p, ms) :: files⟩).opening.toList ++ Json.quote p.text.toList <+:
      (Notice.update ⟨(p, ms) :: files⟩).toJson.render := by
  have hevent : Json.quote "event".toList = "\"event\"".toList := by decide
  have hupdate : Json.quote "update".toList = "\"update\"".toList := by decide
  have hfiles : Json.quote "files".toList = "\"files\"".toList := by decide
  simp only [Notice.toJson, Update.toJson, List.map_cons, Json.Value.render, Json.renderFields,
    hevent, hupdate, hfiles]
  simp [Notice.opening]

theorem opening_prefix_invalidation (p : Path) (ps : List Path) :
    (Notice.invalidation ⟨p :: ps⟩).opening.toList ++ Json.quote p.text.toList <+:
      (Notice.invalidation ⟨p :: ps⟩).toJson.render := by
  have hevent : Json.quote "event".toList = "\"event\"".toList := by decide
  have hname : Json.quote "invalidation".toList = "\"invalidation\"".toList := by decide
  have hscope : Json.quote "scope".toList = "\"scope\"".toList := by decide
  have hfile : Json.quote fileScope.toList = "\"file\"".toList := by decide
  have hpaths : Json.quote "filePaths".toList = "\"filePaths\"".toList := by decide
  simp only [Notice.toJson, Invalidation.fields, List.map_cons, Json.Value.render,
    Json.renderFields, hevent, hname, hscope, hfile, hpaths]
  simp [Notice.opening]

namespace TextFile

variable {f : TextFile} {settings : Settings} {rs : List CompileResult}

theorem source_text {path : Path} (hpath : f.path = .text path) (rs : List CompileResult) :
    f.source rs = .ofContent documentId path f.text := by
  rw [source, name, hpath]
  rfl

/-- Notices of a file whose path is a text are all written. -/
theorem write_text {path : Path} (hpath : f.path = .text path) (ns : List Notice) :
    write (f.stops rs) ns = ⟨linesOf ns, none⟩ := by
  refine write_of_not_stops fun n _ => ?_
  rw [stops, hpath]

/-- Notices with no path but those that are reported do not stop the writing. -/
theorem stops_of_within {n : Notice} (hn : n.Within (reportedFiles rs)) : f.stops rs n = false := by
  unfold stops
  split
  · rfl
  · next shown hpath =>
    refine hn.mentions_eq_false ?_
    rw [name, hpath]
    exact RealPath.nameBeside_garbled_notMem shown _

variable {shown : Path}

/-- The results that are compiled from are those for the path as it is shown. -/
theorem considered_source (hpath : f.path = .garbled shown) :
    Replay.considered settings (f.source rs) rs =
      Replay.considered settings (.ofContent documentId shown f.text) rs := by
  refine Replay.considered_congr ?_ rs
  rw [source, name, hpath]
  exact RealPath.grammar_nameBeside shown _

theorem mem_reportedFiles {r : CompileResult} (hr : r ∈ rs) :
    ∀ d ∈ r.diagnostics, d.location.file ∈ reportedFiles rs :=
  fun _ hd => List.mem_flatMap.mpr ⟨r, hr, List.mem_map_of_mem hd⟩

/-- With accurate flags the path never comes up. -/
theorem write_unneeded (hpath : f.path = .garbled shown)
    (haccurate : ∀ r ∈ Replay.considered settings (.ofContent documentId shown f.text) rs,
      r.accurateFlags = true) :
    write (f.stops rs) (Replay.noticesOf settings (f.source rs) rs) =
      ⟨linesOf (Replay.noticesOf settings (.ofContent documentId shown f.text) rs), none⟩ := by
  have hlines : (f.source rs).lines = (SourceFile.ofContent documentId shown f.text).lines := rfl
  have hsubset := Replay.considered_subset settings (.ofContent documentId shown f.text) rs
  have hwithin : ∀ n ∈ Replay.toldFor (f.source rs) [] _, n.Within (reportedFiles rs) :=
    (Replay.within_toldFor _ haccurate (fun r hr => mem_reportedFiles (hsubset hr))
      (List.forall_mem_nil _)).1
  rw [(Replay.noticesOf_eq settings (f.source rs) rs).1, considered_source hpath,
    write_of_not_stops fun n hn => stops_of_within (hwithin n hn),
    (Replay.noticesOf_eq settings (.ofContent documentId shown f.text) rs).1,
    (Replay.toldFor_congr hlines haccurate []).1]

/-- The first result without accurate flags stops the writing. -/
theorem write_stopped (hpath : f.path = .garbled shown) {front back : List CompileResult}
    {r : CompileResult}
    (hsplit : Replay.considered settings (.ofContent documentId shown f.text) rs =
      front ++ r :: back)
    (hfront : ∀ r ∈ front, r.accurateFlags = true) (hr : r.accurateFlags = false) :
    write (f.stops rs) (Replay.noticesOf settings (f.source rs) rs) =
      ⟨linesOf (Replay.toldUpTo (.ofContent documentId shown f.text) front),
        some "\x7b\"event\":\"update\",\"files\":\x7b"⟩ := by
  have hlines : (f.source rs).lines = (SourceFile.ofContent documentId shown f.text).lines := rfl
  have hsubset := Replay.considered_subset settings (.ofContent documentId shown f.text) rs
  rw [hsplit] at hsubset
  have hwithin : ∀ n ∈ Replay.toldUpTo (f.source rs) front, n.Within (reportedFiles rs) :=
    Replay.within_toldUpTo _ hfront fun r hr =>
      mem_reportedFiles (hsubset (List.mem_append_left _ hr))
  have hstops : f.stops rs (.update (.ofMessages [missingFlagsMessage (f.source rs).path])) := by
    have hname : (f.source rs).path = f.name rs := rfl
    simp [hname, stops, hpath, Notice.mentions, Update.ofMessages, Update.push, Update.insert,
      Update.empty, missingFlagsMessage]
  obtain ⟨after, htold⟩ := Replay.toldFor_append_cons hr (f.source rs) front back
  rw [(Replay.noticesOf_eq settings (f.source rs) rs).1, considered_source hpath, hsplit, htold,
    write_append_cons (fun n hn => stops_of_within (hwithin n hn)) hstops,
    Replay.toldUpTo_congr hlines hfront]
  rfl

end TextFile

/-! ## Replays -/

/-- How a replay of at least one result ends. -/
inductive ReplayEnds (settings : Settings) (fs : FileSystem) (source : Path)
    (results : List Path) : Ending → Prop where
  /-- All files can be used, and the source file's path is a text. -/
  | written {text : String} (hsource : fs.read source = .ok text) {path : Path}
      (hpath : fs.realPath source = .text path) {rs : List CompileResult}
      (hresults : List.Forall₂ (Holds fs) results rs) :
      ReplayEnds settings fs source results
        ⟨0, linesOf (Replay.noticesOf settings (.ofContent documentId path text) rs), "", none⟩
  /-- The path is no text, and no result that is compiled from puts a message on it. -/
  | unneeded {text : String} (hsource : fs.read source = .ok text) {shown : Path}
      (hpath : fs.realPath source = .garbled shown) {rs : List CompileResult}
      (hresults : List.Forall₂ (Holds fs) results rs)
      (haccurate : ∀ r ∈ Replay.considered settings (.ofContent documentId shown text) rs,
        r.accurateFlags = true) :
      ReplayEnds settings fs source results
        ⟨0, linesOf (Replay.noticesOf settings (.ofContent documentId shown text) rs), "", none⟩
  /-- The path is no text, and `r` is the first result that puts a message on it. -/
  | stopped {text : String} (hsource : fs.read source = .ok text) {shown : Path}
      (hpath : fs.realPath source = .garbled shown) {rs : List CompileResult}
      (hresults : List.Forall₂ (Holds fs) results rs) {front back : List CompileResult}
      {r : CompileResult}
      (hsplit : Replay.considered settings (.ofContent documentId shown text) rs =
        front ++ r :: back)
      (hfront : ∀ r ∈ front, r.accurateFlags = true) (hr : r.accurateFlags = false) :
      ReplayEnds settings fs source results
        ⟨1, linesOf (Replay.toldUpTo (.ofContent documentId shown text) front),
          "\x7b\"event\":\"update\",\"files\":\x7b", some "failed to encode event"⟩
  /-- One of the files cannot be used. -/
  | faulty {error : String} (h : FirstFault fs source results error) :
      ReplayEnds settings fs source results ⟨1, [], "", some error⟩

theorem run_of_replay {env : Environment} {fs : FileSystem} {args : List String} {source : Path}
    {results : List Path} (h : AsksForReplay args source results) :
    run env fs args = match replay env.settings fs source results with
      | .error e => ⟨1, [], "", some e.message⟩
      | .ok (_, written) => written.ending := by
  rw [run, transcript, parse_eq_replay_iff.mpr h]
  dsimp only
  cases replay env.settings fs source results <;> rfl

theorem replay_eq_ok {settings : Settings} {fs : FileSystem} {source : Path} {results : List Path}
    {text : String} {rs : List CompileResult} (hsource : fs.read source = .ok text)
    (hresults : List.Forall₂ (Holds fs) results rs) {file : TextFile}
    (hfile : file = ⟨fs.realPath source, text⟩) :
    replay settings fs source results =
      .ok (Replay.whole settings (file.source rs) rs,
        write (file.stops rs) (Replay.noticesOf settings (file.source rs) rs)) := by
  simp only [replay, loadSource, hsource, loadResults_eq_ok_iff.mpr hresults, hfile]
  rfl

theorem replay_eq_error (settings : Settings) {fs : FileSystem} {source : Path}
    {results : List Path} {error : String} (h : FirstFault fs source results error) :
    ∃ e, replay settings fs source results = .error e ∧ e.message = error := by
  cases h with
  | source h => exact ⟨.readSource source, by simp only [replay, loadSource, h], rfl⟩
  | @unreadable _ hsource front back path hresults hfront _ h =>
    have hload : loadResult fs path = .error (.readResult path) := by simp only [loadResult, h]
    refine ⟨.readResult path, ?_, rfl⟩
    simp only [replay, loadSource, hsource, hresults, loadResults_append_cons hfront hload]
  | @undecodable _ hsource front back path hresults hfront _ hjson _ h =>
    have hload : loadResult fs path = .error (.parseResult path) := by
      simp only [loadResult, hjson, h]
    refine ⟨.parseResult path, ?_, rfl⟩
    simp only [replay, loadSource, hsource, hresults, loadResults_append_cons hfront hload]

/-- Either all files can be used or one of them is the first that cannot. -/
theorem usable_or_firstFault (fs : FileSystem) (source : Path) (results : List Path) :
    (∃ text rs, fs.read source = .ok text ∧ List.Forall₂ (Holds fs) results rs) ∨
      ∃ error, FirstFault fs source results error := by
  cases hsource : fs.read source with
  | error cause => exact .inr ⟨_, .source hsource⟩
  | ok text =>
    cases hresults : loadResults fs results with
    | ok rs => exact .inl ⟨text, rs, rfl, loadResults_eq_ok_iff.mp hresults⟩
    | error e =>
      obtain ⟨front, path, back, hsplit, hfront, hbad⟩ := exists_first_of_loadResults hresults
      cases hread : fs.read path with
      | error cause => exact .inr ⟨_, .unreadable hsource hsplit hfront hread⟩
      | ok json =>
        cases hjson : CompileResult.ofJson json with
        | error e => exact .inr ⟨_, .undecodable hsource hsplit hfront hread hjson⟩
        | ok r => simp [loadResult, hread, hjson] at hbad

/-- One of the cases applies. -/
theorem exists_replayEnds (settings : Settings) (fs : FileSystem) (source : Path)
    (results : List Path) : ∃ ending, ReplayEnds settings fs source results ending := by
  obtain ⟨text, rs, hsource, hresults⟩ | ⟨error, h⟩ := usable_or_firstFault fs source results
  · cases hpath : fs.realPath source with
    | text path => exact ⟨_, .written hsource hpath hresults⟩
    | garbled shown =>
      set rs' := Replay.considered settings (.ofContent documentId shown text) rs with hrs'
      cases hfirst : rs'.find? fun r => ! r.accurateFlags with
      | none =>
        have haccurate := List.find?_eq_none.mp hfirst
        exact ⟨_, .unneeded hsource hpath hresults fun r hr => by simpa using haccurate r hr⟩
      | some r =>
        obtain ⟨hr, front, back, hsplit, hfront⟩ := List.find?_eq_some_iff_append.mp hfirst
        exact ⟨_, .stopped hsource hpath hresults hsplit (fun r hr => by simpa using hfront r hr)
          (by simpa using hr)⟩
  · exact ⟨_, .faulty h⟩

/-- The replay ends as the case has it. -/
theorem ReplayEnds.run_eq (env : Environment) {fs : FileSystem} {args : List String}
    {source : Path} {results : List Path} {ending : Ending}
    (h : ReplayEnds env.settings fs source results ending)
    (hargs : AsksForReplay args source results) : run env fs args = ending := by
  rw [run_of_replay hargs]
  cases h with
  | written hsource hpath hresults =>
    rw [replay_eq_ok hsource hresults rfl]
    dsimp only
    rw [TextFile.write_text hpath, TextFile.source_text hpath]
    rfl
  | unneeded hsource hpath hresults haccurate =>
    rw [replay_eq_ok hsource hresults rfl]
    dsimp only
    rw [TextFile.write_unneeded hpath haccurate]
    rfl
  | stopped hsource hpath hresults hsplit hfront hr =>
    rw [replay_eq_ok hsource hresults rfl]
    dsimp only
    rw [TextFile.write_stopped hpath hsplit hfront hr]
    rfl
  | faulty h =>
    obtain ⟨e, he, rfl⟩ := replay_eq_error env.settings h
    rw [he]

/-- A replay without results is misuse. -/
theorem run_of_no_results (env : Environment) (fs : FileSystem) {names : List String}
    {source : Path} (h : Names names [source]) :
    run env fs ("replay" :: names) = ⟨2, [], "", none⟩ := by
  have hparse : parse ("replay" :: names) = .misuse := by
    have hreplay : parse ("replay" :: names) = parseReplay names := rfl
    rw [hreplay, parseReplay, replayFiles_false_eq_ok_iff.mpr h]
  rw [run, transcript, hparse]

/-- A replay ends in one of the ways listed, and in no other, whatever the environment is. Without
results it is misuse. -/
theorem run_eq_iff_of_names (env : Environment) (fs : FileSystem) {names : List String}
    {source : Path} {results : List Path} (h : Names names (source :: results))
    (ending : Ending) :
    run env fs ("replay" :: names) = ending ↔
      results = [] ∧ ending = ⟨2, [], "", none⟩ ∨
      results ≠ [] ∧ ReplayEnds env.settings fs source results ending := by
  by_cases hresults : results = []
  · subst hresults
    rw [run_of_no_results env fs h]
    simp [eq_comm]
  · obtain ⟨ending', hends⟩ := exists_replayEnds env.settings fs source results
    have hargs : AsksForReplay ("replay" :: names) source results := ⟨hresults, names, rfl, h⟩
    simp only [hresults, false_and, false_or, ne_eq, not_false_eq_true, true_and]
    constructor
    · rintro rfl
      rw [hends.run_eq env hargs]
      exact hends
    · intro hending
      exact hending.run_eq env hargs

/-- A source file, and a result in every other file but one. -/
def sparseFiles : FileSystem where
  read p := if p.text = "b.json" then .error .missing else if p.text = "a.m" then .ok "int x;\n"
    else .ok "[true]"
  realPath p := .text p

/-- A source file in a directory whose name is not a text, a result without accurate flags, and
results with them in all other files. -/
def namelessFiles : FileSystem where
  read p := if p.text = "b.json" then .ok "[false]" else if p.text = "a.m" then .ok "int x;\n"
    else .ok "[true]"
  realPath _ := .garbled ⟨"/\uFFFD/a.m"⟩

theorem isName_source : IsName "a.m" := by
  refine ⟨by decide, .inr ?_⟩
  rw [String.startsWith_string_iff]
  decide

/-- A result that is fine is not printed when a later one is missing, but what was told of it is
printed when a later one puts a message on a file without a name. -/
theorem run_eq_iff_of_names_sparseFiles :
    (run ⟨none, none, none⟩ sparseFiles ["replay", "a.m", "--", "-a.json"]).status = 0 ∧
      run ⟨some ⟨"/home/c"⟩, some .directory, none⟩ sparseFiles
          ["replay", "a.m", "--", "-a.json", "b.json"] =
        ⟨1, [], "", some "failed to read compile result b.json"⟩ ∧
      run ⟨none, none, none⟩ namelessFiles ["replay", "a.m", "--", "-a.json", "b.json"] =
        ⟨1, linesOf [.update .empty], "\x7b\"event\":\"update\",\"files\":\x7b",
          some "failed to encode event"⟩ ∧
      (run ⟨none, none, none⟩ namelessFiles ["replay", "a.m", "--", "-a.json"]).status = 0 := by
  have hone : Names ["a.m", "--", "-a.json"] [⟨"a.m"⟩, ⟨"-a.json"⟩] :=
    .name isName_source (.dashes (by decide))
  have htwo : Names ["a.m", "--", "-a.json", "b.json"] [⟨"a.m"⟩, ⟨"-a.json"⟩, ⟨"b.json"⟩] :=
    .name isName_source (.dashes (by decide))
  have hsparse : Holds sparseFiles ⟨"-a.json"⟩ ⟨true, []⟩ := ⟨"[true]", by decide, by decide⟩
  have hmissing : sparseFiles.read ⟨"b.json"⟩ = .error .missing := by decide
  have haccurate : Holds namelessFiles ⟨"-a.json"⟩ ⟨true, []⟩ := ⟨"[true]", by decide, by decide⟩
  have hother : Holds namelessFiles ⟨"b.json"⟩ ⟨false, []⟩ := ⟨"[false]", by decide, by decide⟩
  have hsource : sparseFiles.read ⟨"a.m"⟩ = .ok "int x;\n" := by decide
  have hnameless : namelessFiles.read ⟨"a.m"⟩ = .ok "int x;\n" := by decide
  have htrue : ∀ r ∈ [(⟨true, []⟩ : CompileResult)], r.accurateFlags = true := by decide
  have hsplit : Replay.considered .default (.ofContent documentId ⟨"/\uFFFD/a.m"⟩ "int x;\n")
      [⟨true, []⟩, ⟨false, []⟩] = [⟨true, []⟩] ++ ⟨false, []⟩ :: [] := by decide
  have hfirst : Replay.considered .default (.ofContent documentId ⟨"/\uFFFD/a.m"⟩ "int x;\n")
      [⟨true, []⟩] = [⟨true, []⟩] := by decide
  refine ⟨?_, ?_, ?_, ?_⟩
  · have hends : ReplayEnds .default sparseFiles ⟨"a.m"⟩ [⟨"-a.json"⟩] _ :=
      .written hsource rfl (.cons hsparse .nil)
    rw [(run_eq_iff_of_names ⟨none, none, none⟩ _ hone _).mpr (.inr ⟨nofun, hends⟩)]
  · have hfront : ∀ p ∈ [(⟨"-a.json"⟩ : Path)], ∃ r, Holds sparseFiles p r :=
      fun p hp => ⟨_, List.mem_singleton.mp hp ▸ hsparse⟩
    have hfault : FirstFault sparseFiles ⟨"a.m"⟩ [⟨"-a.json"⟩, ⟨"b.json"⟩] _ :=
      .unreadable hsource (by rfl) hfront hmissing
    exact (run_eq_iff_of_names _ _ htwo _).mpr (.inr ⟨nofun, .faulty hfault⟩)
  · have hends := ReplayEnds.stopped hnameless rfl (.cons haccurate (.cons hother .nil)) hsplit
      htrue rfl
    exact (run_eq_iff_of_names _ _ htwo _).mpr (.inr ⟨nofun, hends⟩)
  · have hends : ReplayEnds .default namelessFiles ⟨"a.m"⟩ [⟨"-a.json"⟩] _ :=
      .unneeded hnameless rfl (.cons haccurate .nil) (hfirst.symm ▸ htrue)
    rw [(run_eq_iff_of_names ⟨none, none, none⟩ _ hone _).mpr (.inr ⟨nofun, hends⟩)]

/-- All files can be used, yet the replay fails with the beginning of a line on its output; and
without results there is no replay. -/
theorem run_namelessFiles :
    (∃ text rs, namelessFiles.read ⟨"a.m"⟩ = .ok text ∧
      List.Forall₂ (Holds namelessFiles) [⟨"b.json"⟩] rs) ∧
    run ⟨none, none, none⟩ namelessFiles ["replay", "a.m", "--", "b.json"] =
      ⟨1, [], "\x7b\"event\":\"update\",\"files\":\x7b", some "failed to encode event"⟩ ∧
    run ⟨none, none, none⟩ namelessFiles ["replay", "a.m"] = ⟨2, [], "", none⟩ := by
  have hnames : Names ["a.m", "--", "b.json"] [⟨"a.m"⟩, ⟨"b.json"⟩] :=
    .name isName_source (.dashes (by decide))
  have hsource : namelessFiles.read ⟨"a.m"⟩ = .ok "int x;\n" := by decide
  have hresult : Holds namelessFiles ⟨"b.json"⟩ ⟨false, []⟩ := ⟨"[false]", by decide, by decide⟩
  have hsplit : Replay.considered .default (.ofContent documentId ⟨"/\uFFFD/a.m"⟩ "int x;\n")
      [⟨false, []⟩] = [] ++ ⟨false, []⟩ :: [] := by decide
  refine ⟨⟨_, _, hsource, .cons hresult .nil⟩, ?_, ?_⟩
  · have hends := ReplayEnds.stopped hsource rfl (.cons hresult .nil) hsplit
      (List.forall_mem_nil _) rfl
    have hargs : AsksForReplay ["replay", "a.m", "--", "b.json"] ⟨"a.m"⟩ [⟨"b.json"⟩] :=
      ⟨nofun, _, rfl, hnames⟩
    exact ReplayEnds.run_eq ⟨none, none, none⟩ hends hargs
  · exact run_of_no_results _ _ (.name isName_source .nil)

end DiagnosticRelay.CommandLine
