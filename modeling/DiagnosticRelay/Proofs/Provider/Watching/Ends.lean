import DiagnosticRelay.Proofs.Provider.Watching.Upkeep

/-!
# How watching begins and ends

A document is opened, or destroyed; the provider is disposed of, or nothing keeps its state alive
any more. Between two pieces of work every watch is both on a document and kept, so taking back
what is kept leaves no watch on any document.
-/

namespace DiagnosticRelay.Configuration

variable {c : Configuration} {i : DocumentIndex} {d : Document}

/-! ## Opening a document -/

theorem getElem?_append_of_eq_some {ds es : List Document} (h : ds[i]? = some d) :
    (ds ++ es)[i]? = some d := by
  rw [List.getElem?_append_left (List.getElem?_eq_some_iff.mp h).1, h]

theorem of_getElem?_concat {ds : List Document} {e : Document} (h : (ds ++ [e])[i]? = some d) :
    ds[i]? = some d ∨ d = e := by
  rw [List.getElem?_append] at h
  split at h
  · exact .inl h
  · exact .inr (List.mem_singleton.mp (List.mem_of_getElem? h))

theorem isGone_openDocument {id : DocumentId} (h : c.IsGone id) :
    ({ c with documents := c.documents ++ [d] } : Configuration).IsGone id := by
  obtain ⟨i, e, he, hid, hdestroyed⟩ := h
  exact ⟨i, e, getElem?_append_of_eq_some he, hid, hdestroyed⟩

theorem quietAt_openDocument (hc : c.advance = none) {id : DocumentId} (hne : id ≠ d.id) :
    QuietAt id c { c with documents := c.documents ++ [d] } where
  head := watchId?_ne_of_rest hc id
  flag := rfl
  entry := rfl
  work := fun _ _ => Iff.rfl
  documents := fun _ e _ he => ⟨e, getElem?_append_of_eq_some he, rfl⟩
  documents' := by
    intro j e hid he
    rcases of_getElem?_concat he with he | rfl
    · exact ⟨e, he, rfl⟩
    · exact absurd hid.symm hne

/-- Nothing is known yet of a document under an identity of its own. -/
theorem Attached.attachedAt_openDocument (ha : c.Attached) (hc : c.advance = none)
    (hwatches : d.watches = []) (hnew : ∀ e ∈ c.documents, e.id ≠ d.id) :
    ({ c with documents := c.documents ++ [d] } : Configuration).AttachedAt d.id := by
  have hfresh {j : DocumentIndex} {e : Document} (he : c.documents[j]? = some e) : e.id ≠ d.id :=
    hnew e (List.mem_of_getElem? he)
  have hgone : ¬ c.IsGone d.id := by
    rintro ⟨j, e, he, heid, _⟩
    exact hfresh he heid
  constructor
  case flagged =>
    intro hflag
    obtain ⟨j, e, key, he, heid, _⟩ := (ha d.id).flagged hflag
    exact absurd heid (hfresh he)
  case watched =>
    intro j e he heid hne
    rcases of_getElem?_concat he with he | rfl
    · exact absurd heid (hfresh he)
    · exact absurd hwatches hne
  case entry =>
    intro ref href
    obtain ⟨_, e, he, heid⟩ := (ha d.id).entry ref href
    exact absurd heid (hfresh he)
  case forgetting => exact fun hmem => absurd hmem ((ha d.id).notMem_of_rest hc hgone rfl)
  case attaching =>
    intro j key
    have hnot : .attaching j d.id key ∉ c.stack := (ha d.id).notMem_of_rest hc hgone rfl
    exact ⟨fun hmem => absurd (List.mem_of_mem_tail hmem) hnot,
      fun hhead => absurd (List.mem_of_head? hhead) hnot⟩
  case destroying =>
    intro w ws hid
    have hnot : .destroying (w :: ws) ∉ c.stack := (ha d.id).not_destroying hc hid
    exact ⟨fun hmem => hnot (List.mem_of_mem_tail hmem),
      fun hhead => absurd (List.mem_of_head? hhead) hnot⟩

/-- A document is opened under an identity of its own. -/
theorem Coherent.openDocument (h : c.Coherent) (hc : c.advance = none) (hwatches : d.watches = [])
    (hnew : ∀ e ∈ c.documents, e.id ≠ d.id) :
    ({ c with documents := c.documents ++ [d] } : Configuration).Coherent := by
  constructor
  case distinct =>
    rw [List.map_append, List.nodup_append]
    refine ⟨h.distinct, by simp, ?_⟩
    intro id hid id' hid'
    obtain ⟨e, he, rfl⟩ := List.mem_map.mp hid
    rw [List.map_singleton] at hid'
    rw [List.mem_singleton.mp hid']
    exact hnew e he
  case recorded => exact h.recorded
  case disposed => exact h.disposed
  case updates => exact h.updates
  case cycles =>
    intro cycle hcycle
    obtain ⟨⟨e, he, heid⟩, hstate⟩ := h.cycles cycle hcycle
    exact ⟨⟨e, getElem?_append_of_eq_some he, heid⟩,
      hstate.imp_right fun hg => hg.imp_left isGone_openDocument⟩
  case held =>
    refine h.held.imp ?_ ?_
    · intro hreaped
      refine ⟨hreaped.dead, hreaped.entry, ?_, hreaped.work⟩
      intro j e he
      rcases of_getElem?_concat he with he | rfl
      · exact hreaped.watches j e he
      · exact hwatches
    · intro ha
      exact ha.of_quietAt d.id (fun _ hne => quietAt_openDocument hc hne)
        (ha.attachedAt_openDocument hc hwatches hnew)

/-! ## Destroying a document -/

namespace Coherent

/-- Between two pieces of work a document has no watch on it, or it has the one that is kept. -/
theorem watches_of_rest (h : c.Coherent) (ha : c.Attached) (hc : c.advance = none)
    (hd : c.documents[i]? = some d) : d.watches = [] ∨ ∃ key,
      c.provider.tracker.isWatched d.id = true ∧ c.provider.watches d.id = some ⟨i, key⟩ ∧
        d.watches = [⟨key, d.id⟩] := by
  cases hw : c.provider.tracker.isWatched d.id with
  | false => exact .inl (h.watches_eq_nil hd hw)
  | true =>
    obtain ⟨key, hentry, hwatches, _⟩ := h.kept ha (watchId?_of_rest hc) hd hw
    exact .inr ⟨key, rfl, hentry, hwatches⟩

theorem quietAt_destroy (h : c.Coherent) (ha : c.Attached) (hc : c.advance = none)
    (hd : c.documents[i]? = some d) {id : DocumentId} (hne : id ≠ d.id) :
    QuietAt id c ((c.updateDocument i Document.destroy).push (.destroying d.watches)) := by
  refine .of_updateDocument Document.destroy (fun _ => rfl) hd hne rfl (watchId?_ne_of_rest hc id)
    rfl rfl ?_
  intro f hf
  refine List.mem_cons.trans (or_iff_right ?_)
  rintro rfl
  rcases h.watches_of_rest ha hc hd with hnone | ⟨key, _, _, hone⟩
  · rw [hnone] at hf
    cases hf
  · rw [hone] at hf
    exact hne (Option.some.inj hf).symm

/-- If a watch is on the document, it is taken to be called next. -/
theorem attachedAt_destroy (h : c.Coherent) (ha : c.Attached) (hc : c.Ready)
    (hd : c.documents[i]? = some d) (hlive : d.isDestroyed = false) :
    ((c.updateDocument i Document.destroy).push (.destroying d.watches)).AttachedAt d.id := by
  have hkept := h.kept ha (watchId?_of_rest hc.rest) hd
  have hids := map_updateDocument c i (f := Document.destroy) Document.id fun _ => rfl
  have hself : (c.updateDocument i Document.destroy).documents[i]? = some d.destroy := by
    rw [getElem?_updateDocument, if_pos rfl, hd]
    rfl
  have hgone : ((c.updateDocument i Document.destroy).push (.destroying d.watches)).IsGone d.id :=
    ⟨i, d.destroy, hself, rfl, rfl⟩
  have hnot : .forgetting d.id ∉ c.stack :=
    (ha d.id).notMem_of_rest hc.rest (h.not_isGone hd hlive) rfl
  constructor
  case flagged =>
    intro hflag
    obtain ⟨key, hentry, hone, _⟩ := hkept hflag
    refine ⟨i, d.destroy, key, hself, rfl, .taken ?_ hentry rfl⟩
    rw [hone]
    rfl
  case watched =>
    intro j e he heid hne
    obtain ⟨_, rfl⟩ := Document.eq_of_id ((congrArg List.Nodup hids).mpr h.distinct) hself he
      heid.symm
    exact absurd rfl hne
  case entry =>
    intro ref href
    rcases ((ha d.id).entry ref href) with ⟨hflag | hmem, _⟩
    · obtain ⟨key, hentry, _⟩ := hkept hflag
      obtain rfl := Option.some.inj (hentry.symm.trans href)
      exact ⟨.inl hflag, d.destroy, hself, rfl⟩
    · exact absurd hmem hnot
  case forgetting =>
    intro hmem
    have hmem : .forgetting d.id ∈ c.stack := by simpa using hmem
    exact absurd hmem hnot
  case attaching => exact fun _ _ => ⟨fun _ => hgone, fun _ => .inr hgone⟩
  case destroying =>
    intro w ws hid
    refine ⟨(ha d.id).not_destroying hc.rest hid, ?_⟩
    intro hhead
    have hcons : d.watches = w :: ws := by
      injection hhead with hframe
      injection hframe
    rcases h.watches_of_rest ha hc.rest hd with hnone | ⟨key, _, hentry, hone⟩
    · cases hnone.symm.trans hcons
    · obtain ⟨_, rfl⟩ := List.cons.inj (hone.symm.trans hcons)
      refine ⟨rfl, ?_, hgone⟩
      cases halive : c.isAlive with
      | true => simpa [isAlive, push, updateDocument, Frame.keepsAlive] using halive
      | false =>
        -- the step that ended here would have taken the watch back
        have hreaped := hc.reaped
        rw [reap_of_not_isAlive halive] at hreaped
        rw [← hreaped] at hentry
        cases hentry

/-- Nobody is told of the destruction of a document once nothing keeps the provider's state alive.
-/
theorem reaped_destroy (hreaped : c.Reaped) (hd : c.documents[i]? = some d) :
    ((c.updateDocument i Document.destroy).push (.destroying d.watches)).Reaped where
  dead := hreaped.dead
  entry := hreaped.entry
  watches := by
    intro j e he
    have he : (c.updateDocument i Document.destroy).documents[j]? = some e := he
    rw [getElem?_updateDocument] at he
    split at he
    · obtain ⟨e', _, rfl⟩ := Option.map_eq_some_iff.mp he
      rfl
    · exact hreaped.watches j e he
  work := by
    intro f hf
    rcases List.mem_cons.mp hf with rfl | hf
    · rw [hreaped.watches i d hd]
      rfl
    · exact hreaped.work f hf

/-- A live document is destroyed. -/
theorem destroy (h : c.Coherent) (hc : c.Ready) (hd : c.documents[i]? = some d)
    (hlive : d.isDestroyed = false) :
    ((c.updateDocument i Document.destroy).push (.destroying d.watches)).Coherent := by
  have hids := map_updateDocument c i (f := Document.destroy) Document.id fun _ => rfl
  constructor
  case distinct => exact (congrArg List.Nodup hids).mpr h.distinct
  case recorded => exact h.recorded
  case disposed => exact h.disposed
  case updates => exact h.updates
  case cycles =>
    intro cycle hcycle
    have hbacked := backed_updateDocument (i := i) (f := Document.destroy) (fun _ => rfl)
      (fun _ _ => rfl) (h.cycles cycle hcycle)
    exact ⟨hbacked.document, hbacked.state⟩
  case held =>
    refine h.held.imp (fun hreaped => reaped_destroy hreaped hd) ?_
    intro ha
    exact ha.of_quietAt d.id (fun _ hne => h.quietAt_destroy ha hc.rest hd hne)
      (h.attachedAt_destroy ha hc hd hlive)

end Coherent

/-! ## Taking back every watch -/

theorem getElem?_of_releaseWatches {e : Document} (he : c.releaseWatches.documents[i]? = some e) :
    ∃ d, c.documents[i]? = some d ∧
      e = { d with
        watches := d.watches.filter fun w => c.provider.watches w.id ≠ some ⟨i, w.key⟩ } := by
  rw [getElem?_releaseWatches] at he
  obtain ⟨d, hd, rfl⟩ := Option.map_eq_some_iff.mp he
  exact ⟨d, hd, rfl⟩

theorem map_id_releaseWatches (c : Configuration) :
    c.releaseWatches.documents.map Document.id = c.documents.map Document.id := by
  apply List.ext_getElem?
  intro j
  rw [List.getElem?_map, List.getElem?_map, getElem?_releaseWatches]
  cases c.documents[j]? <;> rfl

theorem isGone_releaseWatches {id : DocumentId} (h : c.IsGone id) : c.releaseWatches.IsGone id := by
  obtain ⟨j, e, he, heid, hdestroyed⟩ := h
  exact ⟨j, _, (getElem?_releaseWatches c j).trans (congrArg (Option.map _) he), heid, hdestroyed⟩

theorem Backed.releaseWatches {cycle : Cycle} (h : c.Backed cycle) :
    c.releaseWatches.Backed cycle where
  document := by
    obtain ⟨e, he, heid⟩ := h.document
    exact ⟨_, (getElem?_releaseWatches c _).trans (congrArg (Option.map _) he), heid⟩
  state := h.state.imp_right fun hgone => hgone.imp_left isGone_releaseWatches

namespace Coherent

/-- Between two pieces of work the provider knows of every watch. -/
theorem watches_of_releaseWatches (h : c.Coherent) (ha : c.Attached) (hc : c.advance = none)
    {e : Document} (he : c.releaseWatches.documents[i]? = some e) : e.watches = [] := by
  obtain ⟨d, hd, rfl⟩ := getElem?_of_releaseWatches he
  show (d.watches.filter fun w => c.provider.watches w.id ≠ some ⟨i, w.key⟩) = []
  rcases h.watches_of_rest ha hc hd with hnone | ⟨key, _, hentry, hwatches⟩
  · rw [hnone]
    rfl
  · rw [hwatches]
    simp [hentry]

theorem attachedAt_disposed (h : c.Coherent) (ha : c.Attached) (hc : c.advance = none)
    (id : DocumentId) : c.disposed.AttachedAt id := by
  constructor
  case flagged =>
    intro hw
    cases hw
  case watched =>
    intro j e he _ hne
    exact absurd (h.watches_of_releaseWatches ha hc he) hne
  case entry =>
    intro ref hentry
    cases hentry
  case forgetting =>
    intro hmem
    exact ⟨rfl, isGone_releaseWatches ((ha id).forgetting hmem).2⟩
  case attaching =>
    intro j key
    refine ⟨?_, fun _ => .inl rfl⟩
    exact fun hmem => isGone_releaseWatches (((ha id).attaching j key).1 hmem)
  case destroying =>
    intro w ws hid
    refine ⟨((ha id).destroying w ws hid).1, ?_⟩
    intro hhead
    cases watchId?_of_rest hc _ hhead

/-- The provider is disposed of. -/
theorem dispose (h : c.Coherent) (hc : c.advance = none) (halive : c.isAlive = true) :
    c.disposed.Coherent := by
  constructor
  case distinct => exact (congrArg List.Nodup (map_id_releaseWatches c)).mpr h.distinct
  case recorded =>
    intro id ps hr
    cases hr
  case disposed => exact fun _ _ => rfl
  case updates => exact h.updates
  case cycles =>
    intro cycle hcycle
    exact ⟨(h.cycles cycle hcycle).releaseWatches.document, .inr (.inr rfl)⟩
  case held => exact .inr (h.attachedAt_disposed (h.attached halive) hc)

/-- Nothing keeps the provider's state alive. -/
theorem reap (h : c.Coherent) (hc : c.advance = none) (hdead : c.isAlive = false) :
    c.releaseWatches.Coherent := by
  rcases h.held with hreaped | ha
  · rw [releaseWatches_of_none hreaped.entry]
    exact h
  constructor
  case distinct => exact (congrArg List.Nodup (map_id_releaseWatches c)).mpr h.distinct
  case recorded => exact h.recorded
  case disposed => exact h.disposed
  case updates => exact h.updates
  case cycles => exact fun cycle hcycle => (h.cycles cycle hcycle).releaseWatches
  case held =>
    refine .inl ⟨hdead, fun _ => rfl, fun j e he => h.watches_of_releaseWatches ha hc he, ?_⟩
    intro f hf
    have hidle : f.keepsAlive = false := by
      simp only [isAlive, Bool.or_eq_false_iff] at hdead
      exact eq_false_of_ne_true (List.any_eq_false.mp hdead.2 f hf)
    cases f with
    | destroying watches =>
      cases watches with
      | nil => rfl
      | cons w ws => exact absurd hf ((ha w.id).not_destroying hc rfl)
    | forgetting => cases hidle
    | attaching => cases hidle
    | _ => rfl

/-- The watch of a destroyed document never finds the provider's state gone. -/
theorem not_miss (h : c.Coherent) {w : Watch} {watches : List Watch} {stack : List Frame}
    (hs : c.stack = .destroying (w :: watches) :: stack) :
    (c.setStack (.destroying watches :: stack)).isAlive = true := by
  have halive := (h.taken hs).2.1
  simpa [isAlive, setStack, hs, Frame.keepsAlive] using halive

end Coherent

end DiagnosticRelay.Configuration
