import DiagnosticRelay.Proofs.Provider.Watching

/-!
# The upkeep of watches

The changes in which a watch is put on a document, kept, taken or given back, one lemma for each.
A document that is flagged has its watch put on it in the same change and kept in the next one,
with no callout in between. A document that is destroyed loses its watch at once, then its flag,
and the provider lets go of the watch when the listeners have been told.
-/

namespace DiagnosticRelay.Configuration

variable {c : Configuration} {i : DocumentIndex} {d : Document}

/-! ## Documents and flags -/

theorem getElem?_updateDocument (c : Configuration) (i j : DocumentIndex)
    (f : Document → Document) : (c.updateDocument i f).documents[j]? =
      if i = j then c.documents[j]?.map f else c.documents[j]? := by
  show (c.documents.modify i f)[j]? = _
  rw [List.getElem?_modify]
  cases c.documents[j]? <;> split <;> rfl

theorem map_updateDocument {β : Type} (c : Configuration) (i : DocumentIndex)
    {f : Document → Document} (g : Document → β) (hf : ∀ d, g (f d) = g d) :
    (c.updateDocument i f).documents.map g = c.documents.map g := by
  apply List.ext_getElem?
  intro j
  rw [List.getElem?_map, List.getElem?_map, getElem?_updateDocument]
  split
  · cases c.documents[j]? with
    | none => rfl
    | some d => exact congrArg some (hf d)
  · rfl

theorem isGone_updateDocument {f : Document → Document} {id : DocumentId}
    (hid : ∀ d, (f d).id = d.id) (hf : ∀ d, d.isDestroyed = true → (f d).isDestroyed = true)
    (h : c.IsGone id) : (c.updateDocument i f).IsGone id := by
  obtain ⟨j, e, he, heid, hdestroyed⟩ := h
  by_cases hij : i = j
  · refine ⟨j, f e, ?_, (hid e).trans heid, hf e hdestroyed⟩
    rw [getElem?_updateDocument, if_pos hij, he, Option.map_some]
  · refine ⟨j, e, ?_, heid, hdestroyed⟩
    rw [getElem?_updateDocument, if_neg hij, he]

theorem backed_updateDocument {f : Document → Document} (hid : ∀ d, (f d).id = d.id)
    (hf : ∀ d, d.isDestroyed = true → (f d).isDestroyed = true) {cycle : Cycle}
    (h : c.Backed cycle) : (c.updateDocument i f).Backed cycle where
  document := by
    obtain ⟨e, he, heid⟩ := h.document
    rw [getElem?_updateDocument, he]
    split
    · exact ⟨f e, rfl, (hid e).trans heid⟩
    · exact ⟨e, rfl, heid⟩
  state := h.state.imp_right fun hgone => hgone.imp_left (isGone_updateDocument hid hf)

/-- A change of one document moves no watch in the name of another one. -/
theorem QuietAt.of_updateDocument {c' : Configuration} {id : DocumentId}
    (f : Document → Document) (hf : ∀ d, (f d).id = d.id) (hd : c.documents[i]? = some d)
    (hne : id ≠ d.id) (hdocuments : c'.documents = (c.updateDocument i f).documents)
    (hhead : ∀ g, c.stack.head? = some g → g.watchId? ≠ some id)
    (hflag : c'.provider.tracker.isWatched id = c.provider.tracker.isWatched id)
    (hentry : c'.provider.watches id = c.provider.watches id)
    (hwork : ∀ g : Frame, g.watchId? = some id → (g ∈ c'.stack ↔ g ∈ c.stack)) :
    QuietAt id c c' where
  head := hhead
  flag := hflag
  entry := hentry
  work := hwork
  documents := by
    intro j e hid he
    have hij : i ≠ j := by
      rintro rfl
      exact hne (hid.symm.trans (congrArg Document.id (Option.some.inj (he.symm.trans hd))))
    refine ⟨e, ?_, rfl⟩
    rw [hdocuments, getElem?_updateDocument, if_neg hij, he]
  documents' := by
    intro j e' hid he'
    rw [hdocuments, getElem?_updateDocument] at he'
    split at he'
    · next hij =>
      subst hij
      rw [hd] at he'
      obtain rfl : f d = e' := Option.some.inj he'
      exact absurd (hid.symm.trans (hf d)) hne
    · exact ⟨e', he', rfl⟩

namespace Coherent

theorem eq_of_id (h : c.Coherent) {j : DocumentIndex} {e : Document}
    (hd : c.documents[i]? = some d) (he : c.documents[j]? = some e) (hid : d.id = e.id) :
    i = j ∧ d = e := Document.eq_of_id h.distinct hd he hid

theorem attached (h : c.Coherent) (halive : c.isAlive = true) : c.Attached := by
  rcases h.held with hreaped | hattached
  · cases hreaped.dead.symm.trans halive
  · exact hattached

theorem attached_of_head (h : c.Coherent) {f : Frame} {stack : List Frame}
    (hs : c.stack = f :: stack) (hf : f.watchId? ≠ none) : c.Attached := by
  rcases h.held with hreaped | hattached
  · refine absurd (hreaped.work f ?_) hf
    rw [hs]
    exact List.mem_cons_self
  · exact hattached

/-- The cycle that the frame on top works for is backed. -/
theorem backed_of_head (h : c.Coherent) {f : Frame} {stack : List Frame} {cycle : Cycle}
    (hs : c.stack = f :: stack) (hcycle : f.cycle? = some cycle) : c.Backed cycle := by
  apply h.cycles cycle
  refine List.mem_append_right _ (List.mem_filterMap.mpr ⟨f, ?_, hcycle⟩)
  rw [hs]
  exact List.mem_cons_self

/-- The update that the frame on top has still to publish or to record lists every path once. -/
theorem distinct_of_head (h : c.Coherent) {f : Frame} {stack : List Frame} {u : Update}
    (hs : c.stack = f :: stack) (hu : f.update? = some u) : Path.Distinct u.paths := by
  apply h.updates u
  refine List.mem_filterMap.mpr ⟨f, ?_, hu⟩
  rw [hs]
  exact List.mem_cons_self

/-- The watch that is called next is the only one, and its document is gone. -/
theorem taken (h : c.Coherent) {w : Watch} {ws : List Watch} {stack : List Frame}
    (hs : c.stack = .destroying (w :: ws) :: stack) :
    ws = [] ∧ c.isAlive = true ∧ c.IsGone w.id := by
  have ha := h.attached_of_head hs (Option.some_ne_none _)
  apply ((ha w.id).destroying w ws rfl).2
  rw [hs]
  rfl

/-- As long as a document is flagged the provider is not disposed of. -/
theorem isDisposed_of_isWatched (h : c.Coherent) {id : DocumentId}
    (hw : c.provider.tracker.isWatched id = true) : c.provider.isDisposed = false := by
  apply eq_false_of_ne_true
  intro hdisposed
  cases (h.disposed hdisposed id).symm.trans hw

/-- A document that is there is not gone unless it is destroyed. -/
theorem not_isGone (h : c.Coherent) (hd : c.documents[i]? = some d)
    (hlive : d.isDestroyed = false) : ¬ c.IsGone d.id := by
  rintro ⟨j, e, he, hid, hdestroyed⟩
  obtain ⟨_, rfl⟩ := h.eq_of_id hd he hid.symm
  cases hlive.symm.trans hdestroyed

theorem holds (h : c.Coherent) (ha : c.Attached) (hd : c.documents[i]? = some d)
    (hw : c.provider.tracker.isWatched d.id = true) : ∃ key, c.Holds i d key := by
  obtain ⟨j, e, key, he, hid, hholds⟩ := (ha d.id).flagged hw
  obtain ⟨rfl, rfl⟩ := h.eq_of_id hd he hid.symm
  exact ⟨key, hholds⟩

/-- Unless a watch is changing hands, the watch of a flagged document is on it and kept. -/
theorem kept (h : c.Coherent) (ha : c.Attached)
    (hhead : ∀ f, c.stack.head? = some f → f.watchId? = none)
    (hd : c.documents[i]? = some d) (hw : c.provider.tracker.isWatched d.id = true) :
    ∃ key, c.provider.watches d.id = some ⟨i, key⟩ ∧ d.watches = [⟨key, d.id⟩] ∧
      d.isDestroyed = false := by
  obtain ⟨key, hholds⟩ := h.holds ha hd hw
  cases hholds with
  | kept hentry hwatches hlive => exact ⟨key, hentry, hwatches, hlive⟩
  | fresh hhead' => cases hhead _ hhead'
  | taken hhead' => cases hhead _ hhead'

/-- Where somebody else has to move, no destroyed document is flagged. -/
theorem isWatched_of_isDestroyed (h : c.Coherent) (ha : c.Attached) (hc : c.advance = none)
    (hd : c.documents[i]? = some d) (hdestroyed : d.isDestroyed = true) :
    c.provider.tracker.isWatched d.id = false := by
  cases hw : c.provider.tracker.isWatched d.id with
  | false => rfl
  | true =>
    obtain ⟨_, _, _, hlive⟩ := h.kept ha (watchId?_of_rest hc) hd hw
    cases hlive.symm.trans hdestroyed

theorem watches_eq_nil (h : c.Coherent) (hd : c.documents[i]? = some d)
    (hw : c.provider.tracker.isWatched d.id = false) : d.watches = [] := by
  rcases h.held with hreaped | ha
  · exact hreaped.watches i d hd
  · by_cases hne : d.watches = []
    · exact hne
    · cases hw.symm.trans ((ha d.id).watched i d hd rfl hne).2

theorem recorded_eq_none (h : c.Coherent) {id : DocumentId}
    (hw : c.provider.tracker.isWatched id = false) : c.provider.tracker.recorded id = none := by
  cases hr : c.provider.tracker.recorded id with
  | none => rfl
  | some ps => cases hw.symm.trans (h.recorded id ps hr).1

/-- No watch is kept for a live document without a flag. -/
theorem entry_eq_none (h : c.Coherent) (ha : c.Attached) (hd : c.documents[i]? = some d)
    (hlive : d.isDestroyed = false) (hw : c.provider.tracker.isWatched d.id = false) :
    c.provider.watches d.id = none := by
  cases hentry : c.provider.watches d.id with
  | none => rfl
  | some ref =>
    exfalso
    rcases ((ha d.id).entry ref hentry).1 with hflag | hmem
    · cases hw.symm.trans hflag
    · exact h.not_isGone hd hlive ((ha d.id).forgetting hmem).2

/-- The watch that has been put on a live document is to be kept next. -/
theorem attachedAt_watch (h : c.Coherent) (ha : c.Attached) (hc : c.advance = none)
    (hd : c.documents[i]? = some d) (hw : c.provider.tracker.isWatched d.id = false)
    (hlive : d.isDestroyed = false) :
    ((c.flag i d).updateDocument i (·.watch ⟨c.nextKey, d.id⟩)).AttachedAt d.id := by
  have hentry := h.entry_eq_none ha hd hlive hw
  have hgone := h.not_isGone hd hlive
  have hids := map_updateDocument c i (f := (·.watch ⟨c.nextKey, d.id⟩)) Document.id fun _ => rfl
  have hself : ((c.flag i d).updateDocument i (·.watch ⟨c.nextKey, d.id⟩)).documents[i]? =
      some (d.watch ⟨c.nextKey, d.id⟩) := by
    show (c.updateDocument i (·.watch ⟨c.nextKey, d.id⟩)).documents[i]? = _
    rw [getElem?_updateDocument, if_pos rfl, hd]
    rfl
  constructor
  case flagged =>
    intro _
    refine ⟨i, _, c.nextKey, hself, rfl, .fresh rfl hentry ?_ hlive⟩
    simp [Document.watch, h.watches_eq_nil hd hw]
  case watched =>
    intro j e he hid _
    obtain ⟨_, rfl⟩ := Document.eq_of_id ((congrArg List.Nodup hids).mpr h.distinct) hself he
      hid.symm
    exact ⟨hlive, by simp [flag, setTracker, updateDocument]⟩
  case entry =>
    intro ref href
    cases hentry.symm.trans href
  case forgetting =>
    intro hmem
    have hmem : .forgetting d.id ∈ c.stack := by
      simpa [flag, updateDocument] using hmem
    exact absurd hmem ((ha d.id).notMem_of_rest hc hgone rfl)
  case attaching =>
    intro j key
    exact ⟨fun hmem => absurd hmem ((ha d.id).notMem_of_rest hc hgone rfl), fun _ => .inl hentry⟩
  case destroying =>
    intro w ws hid
    refine ⟨(ha d.id).not_destroying hc hid, ?_⟩
    intro hhead
    cases hhead

/-- A watch is put on a live document. -/
theorem watch (h : c.Coherent) (hc : c.advance = none) (halive : c.isAlive = true)
    (hdisposed : c.provider.isDisposed = false) (hd : c.documents[i]? = some d)
    (hw : c.provider.tracker.isWatched d.id = false) (hlive : d.isDestroyed = false) :
    ((c.flag i d).updateDocument i (·.watch ⟨c.nextKey, d.id⟩)).Coherent := by
  have ha := h.attached halive
  have hids := map_updateDocument c i (f := (·.watch ⟨c.nextKey, d.id⟩)) Document.id fun _ => rfl
  have hflag (id : DocumentId) (hid : c.provider.tracker.isWatched id = true) :
      (c.flag i d).provider.tracker.isWatched id = true := by
    simp [flag, setTracker, hid]
  constructor
  case distinct => exact (congrArg List.Nodup hids).mpr h.distinct
  case recorded =>
    intro id ps hps
    exact (h.recorded id ps hps).imp_left (hflag id)
  case disposed =>
    intro hdisposed'
    cases hdisposed.symm.trans hdisposed'
  case updates => exact h.updates
  case cycles =>
    intro cycle hcycle
    have hbacked := backed_updateDocument (c := c) (i := i)
      (f := (·.watch ⟨c.nextKey, d.id⟩)) (fun _ => rfl) (fun _ hf => hf) (h.cycles cycle hcycle)
    exact ⟨hbacked.document, hbacked.state.imp_left (hflag cycle.id)⟩
  case held =>
    refine .inr (ha.of_quietAt d.id ?_ (h.attachedAt_watch ha hc hd hw hlive))
    intro id hne
    refine .of_updateDocument (·.watch ⟨c.nextKey, d.id⟩) (fun _ => rfl) hd hne rfl
      (watchId?_ne_of_rest hc id) ?_ rfl ?_
    · simp [flag, setTracker, updateDocument, hne]
    · intro f hf
      have hf' : f ≠ .attaching i d.id c.nextKey := by
        rintro rfl
        exact hne (Option.some.inj hf).symm
      simp [flag, updateDocument, hf']

end Coherent

/-! ## Forgetting a document -/

theorem isWatched_forgetDocument (b : Configuration) (x id : DocumentId) :
    (b.forgetDocument x).1.provider.tracker.isWatched id =
      if id = x then false else b.provider.tracker.isWatched id := by
  rw [forgetDocument_eq, provider_publishSome]
  exact Tracker.isWatched_forget b.provider.tracker x id

theorem recorded_forgetDocument (b : Configuration) (x id : DocumentId) :
    (b.forgetDocument x).1.provider.tracker.recorded id =
      if id = x then none else b.provider.tracker.recorded id := by
  rw [forgetDocument_eq, provider_publishSome]
  exact Tracker.recorded_forget b.provider.tracker x id

theorem watches_forgetDocument (b : Configuration) (x : DocumentId) :
    (b.forgetDocument x).1.provider.watches = b.provider.watches := by
  rw [forgetDocument_eq, provider_publishSome]
  rfl

theorem documents_forgetDocument (b : Configuration) (x : DocumentId) :
    (b.forgetDocument x).1.documents = b.documents := by
  rw [forgetDocument_eq, documents_publishSome]
  rfl

theorem stack_forgetDocument (b : Configuration) (x : DocumentId) :
    ∃ told : List Frame, (∀ f ∈ told, ∃ i ids, f = .delivering (.invalidation i) ids) ∧
      (b.forgetDocument x).1.stack = told ++ .forgetting x :: b.stack := by
  rw [forgetDocument_eq]
  exact exists_stack_publishSome _ _ _

theorem mem_stack_forgetDocument {b : Configuration} {x id : DocumentId} {f : Frame}
    (hf : f.watchId? = some id) :
    f ∈ (b.forgetDocument x).1.stack ↔ f = .forgetting x ∨ f ∈ b.stack := by
  obtain ⟨told, htold, hstack⟩ := stack_forgetDocument b x
  have hnot : f ∉ told := by
    intro hmem
    obtain ⟨i, ids, rfl⟩ := htold f hmem
    cases hf
  rw [hstack, List.mem_append, List.mem_cons]
  exact or_iff_right hnot

theorem updates_forgetDocument (b : Configuration) (x : DocumentId) :
    (b.forgetDocument x).1.updates = b.updates := by
  obtain ⟨told, htold, hstack⟩ := stack_forgetDocument b x
  have hnone : told.filterMap Frame.update? = [] := by
    rw [List.filterMap_eq_nil_iff]
    intro f hf
    obtain ⟨i, ids, rfl⟩ := htold f hf
    rfl
  rw [updates, hstack, List.filterMap_append, hnone]
  rfl

theorem cycles_forgetDocument (b : Configuration) (x : DocumentId) :
    (b.forgetDocument x).1.cycles = b.cycles := by
  obtain ⟨told, htold, hstack⟩ := stack_forgetDocument b x
  have hnone : told.filterMap Frame.cycle? = [] := by
    rw [List.filterMap_eq_nil_iff]
    intro f hf
    obtain ⟨i, ids, rfl⟩ := htold f hf
    rfl
  rw [cycles, hstack, List.filterMap_append, hnone, forgetDocument_eq, pending_publishSome]
  rfl

/-- A document that is gone is to be forgotten. What has been done up to `b` was about it alone. -/
structure AboutToForget (c b : Configuration) (x : DocumentId) : Prop where
  gone : c.IsGone x
  documents : b.documents = c.documents := by rfl
  recorded : b.provider.tracker.recorded = c.provider.tracker.recorded := by rfl
  flags : ∀ id, id ≠ x → b.provider.tracker.isWatched id = c.provider.tracker.isWatched id
  entries : b.provider.watches = c.provider.watches := by rfl
  disposed : b.provider.isDisposed = c.provider.isDisposed := by rfl
  head : ∀ id, id ≠ x → ∀ f, c.stack.head? = some f → f.watchId? ≠ some id
  work : ∀ id, id ≠ x → ∀ f : Frame, f.watchId? = some id → (f ∈ b.stack ↔ f ∈ c.stack)
  destroying : ∀ w ws, w.id = x → .destroying (w :: ws) ∉ b.stack
  updates : b.updates = c.updates
  cycles : b.cycles = c.cycles

namespace AboutToForget

variable {b : Configuration} {x : DocumentId}

theorem documents_eq (hb : AboutToForget c b x) :
    (b.forgetDocument x).1.documents = c.documents :=
  (documents_forgetDocument b x).trans hb.documents

theorem isGone (hb : AboutToForget c b x) {id : DocumentId} (h : c.IsGone id) :
    (b.forgetDocument x).1.IsGone id := isGone_of_documents hb.documents_eq.symm h

theorem flag_eq (hb : AboutToForget c b x) {id : DocumentId} (hid : id ≠ x) :
    (b.forgetDocument x).1.provider.tracker.isWatched id =
      c.provider.tracker.isWatched id := by
  rw [isWatched_forgetDocument, if_neg hid, hb.flags id hid]

theorem quietAt (hb : AboutToForget c b x) {id : DocumentId} (hid : id ≠ x) :
    QuietAt id c (b.forgetDocument x).1 := by
  refine .of_documents hb.documents_eq (hb.head id hid) (hb.flag_eq hid) ?_ ?_
  · rw [watches_forgetDocument, hb.entries]
  · intro f hf
    have hne : f ≠ .forgetting x := by
      rintro rfl
      exact hid (Option.some.inj hf).symm
    rw [mem_stack_forgetDocument hf, hb.work id hid f hf]
    exact or_iff_right hne

theorem attachedAt (hb : AboutToForget c b x) (h : c.Coherent) (ha : c.Attached) :
    (b.forgetDocument x).1.AttachedAt x := by
  have hflag : (b.forgetDocument x).1.provider.tracker.isWatched x = false := by
    rw [isWatched_forgetDocument, if_pos rfl]
  have hgone := hb.isGone hb.gone
  constructor
  case flagged =>
    intro hflag'
    cases hflag.symm.trans hflag'
  case watched =>
    intro j e he hid hne
    rw [hb.documents_eq] at he
    exact absurd hb.gone (hid ▸ h.not_isGone he ((ha x).watched j e he hid hne).1)
  case entry =>
    intro ref href
    rw [watches_forgetDocument, hb.entries] at href
    rw [hb.documents_eq]
    exact ⟨.inr ((mem_stack_forgetDocument rfl).mpr (.inl rfl)), ((ha x).entry ref href).2⟩
  case forgetting => exact fun _ => ⟨hflag, hgone⟩
  case attaching => exact fun _ _ => ⟨fun _ => hgone, fun _ => .inr hgone⟩
  case destroying =>
    intro w ws hid
    have hnot : .destroying (w :: ws) ∉ (b.forgetDocument x).1.stack := by
      intro hmem
      rcases (mem_stack_forgetDocument rfl).mp hmem with heq | hmem
      · cases heq
      · exact hb.destroying w ws hid hmem
    exact ⟨fun hmem => hnot (List.mem_of_mem_tail hmem),
      fun hhead => absurd (List.mem_of_head? hhead) hnot⟩

/-- A document that is found to be destroyed has been flagged, to be attached later. -/
theorem of_flag (ha : c.AttachedAt d.id) (hc : c.advance = none) (hd : c.documents[i]? = some d)
    (hdestroyed : d.isDestroyed = true) : AboutToForget c (c.flag i d) d.id where
  gone := ⟨i, d, hd, rfl, hdestroyed⟩
  flags := by
    intro id hid
    simp [flag, setTracker, hid]
  head := fun id _ => watchId?_ne_of_rest hc id
  work := by
    intro id hid f hf
    have hne : f ≠ .attaching i d.id c.nextKey := by
      rintro rfl
      exact hid (Option.some.inj hf).symm
    simp [flag, hne]
  destroying := by
    intro w ws hid hmem
    have hmem : .destroying (w :: ws) ∈ c.stack := by
      simpa [flag] using hmem
    exact ha.not_destroying hc hid hmem
  updates := rfl
  cycles := rfl

/-- The watch of a document has been taken, to be called. -/
theorem of_taken {w : Watch} {stack : List Frame} (ha : c.AttachedAt w.id) (hgone : c.IsGone w.id)
    (hs : c.stack = .destroying [w] :: stack) :
    AboutToForget c (c.setStack (.destroying [] :: stack)) w.id where
  gone := hgone
  flags := fun _ _ => rfl
  head := by
    intro id hid f hf hf'
    rw [hs] at hf
    obtain rfl := Option.some.inj hf
    exact hid (Option.some.inj hf').symm
  work := by
    intro id hid f hf
    have hne : f ≠ .destroying [w] := by
      rintro rfl
      exact hid (Option.some.inj hf).symm
    have hne' : f ≠ .destroying [] := by
      rintro rfl
      cases hf
    simp [hs, hne, hne']
  destroying := by
    intro w' ws hid hmem
    have htail : .destroying (w' :: ws) ∈ c.stack.tail := by
      rw [hs]
      simpa using hmem
    exact (ha.destroying w' ws hid).1 htail
  updates := by
    rw [Configuration.updates, Configuration.updates, hs]
    rfl
  cycles := by
    rw [Configuration.cycles, Configuration.cycles, hs]
    rfl

end AboutToForget

namespace Coherent

/-- A document that is gone is forgotten. -/
theorem forgetDocument (h : c.Coherent) (ha : c.Attached) {b : Configuration} {x : DocumentId}
    (hb : AboutToForget c b x) : (b.forgetDocument x).1.Coherent := by
  constructor
  case distinct =>
    rw [hb.documents_eq]
    exact h.distinct
  case recorded =>
    intro id ps hps
    rw [recorded_forgetDocument, hb.recorded] at hps
    split at hps
    · cases hps
    · next hid =>
      rw [hb.flag_eq hid]
      exact h.recorded id ps hps
  case disposed =>
    intro hdisposed id
    rw [isDisposed_forgetDocument, hb.disposed] at hdisposed
    by_cases hid : id = x
    · rw [isWatched_forgetDocument, if_pos hid]
    · rw [hb.flag_eq hid, h.disposed hdisposed id]
  case updates =>
    rw [updates_forgetDocument, hb.updates]
    exact h.updates
  case cycles =>
    intro cycle hcycle
    rw [cycles_forgetDocument, hb.cycles] at hcycle
    have hbacked := h.cycles cycle hcycle
    refine ⟨by rw [hb.documents_eq]; exact hbacked.document, ?_⟩
    by_cases hid : cycle.id = x
    · exact .inr (.inl (hb.isGone (hid ▸ hb.gone)))
    · rw [hb.flag_eq hid, isDisposed_forgetDocument, hb.disposed]
      exact hbacked.state.imp_right fun hg => hg.imp_left hb.isGone
  case held => exact .inr (ha.of_quietAt x (fun _ hid => hb.quietAt hid) (hb.attachedAt h ha))

/-- A watch on a destroyed document is called at once. -/
theorem watchDestroyed (h : c.Coherent) (hc : c.advance = none) (halive : c.isAlive = true)
    (hd : c.documents[i]? = some d) (hdestroyed : d.isDestroyed = true) :
    ((c.flag i d).forgetDocument d.id).1.Coherent := by
  have ha := h.attached halive
  exact h.forgetDocument ha (.of_flag (ha d.id) hc hd hdestroyed)

/-- The watch of a document that is being destroyed is called. -/
theorem call (h : c.Coherent) {w : Watch} {watches : List Watch} {stack : List Frame}
    (hs : c.stack = .destroying (w :: watches) :: stack) :
    ((c.setStack (.destroying watches :: stack)).forgetDocument w.id).1.Coherent := by
  have ha := h.attached_of_head hs (Option.some_ne_none _)
  obtain ⟨rfl, _, hgone⟩ := h.taken hs
  exact h.forgetDocument ha (.of_taken (ha w.id) hgone hs)

end Coherent

end DiagnosticRelay.Configuration
