import DiagnosticRelay.Proofs.Provider.Reissue

/-!
# Whose cycles they are

A document keeps its place and its identity for ever, and once destroyed it stays so. Hence live
documents stay apart (`liveApart_of_change`), and a cycle carries the identity of the document it
was started for, however often it is polled and put back (`named_of_change`).
-/

namespace DiagnosticRelay

/-- Who a document is, and whether it is still there. -/
def Document.owner (d : Document) : DocumentId × Bool := (d.id, d.isDestroyed)

namespace Configuration

variable {rule : Configuration → Move → Bool} {c c' : Configuration} {shown : List Event}

theorem map_owner_releaseWatch (c : Configuration) (id : DocumentId) :
    (c.releaseWatch id).documents.map Document.owner = c.documents.map Document.owner := by
  unfold releaseWatch
  split
  · rfl
  · exact map_updateDocument c _ Document.owner fun _ => rfl

theorem map_owner_releaseWatches (c : Configuration) :
    c.releaseWatches.documents.map Document.owner = c.documents.map Document.owner := by
  apply List.ext_getElem?
  intro j
  rw [List.getElem?_map, List.getElem?_map, getElem?_releaseWatches]
  cases c.documents[j]? <;> rfl

/-- The documents are the same as before, or one has been opened, or destroyed. -/
theorem Change.documents_or (h : Change rule c shown c') :
    c'.documents.map Document.owner = c.documents.map Document.owner ∨
    (∃ d, rule c (.openDocument d) = true ∧ c'.documents = c.documents ++ [d]) ∨
    ∃ i, c'.documents = (c.updateDocument i Document.destroy).documents := by
  cases h with
  | register => exact .inl rfl
  | release => exact .inl rfl
  | skip => exact .inl rfl
  | start => exact .inl rfl
  | watch => exact .inl (map_updateDocument (c.flag _ _) _ Document.owner fun _ => rfl)
  | watchDestroyed =>
    rw [documents_forgetDocument]
    exact .inl rfl
  | poll => exact .inl rfl
  | abandon => exact .inl rfl
  | openDocument d hc hm => exact .inr (.inl ⟨d, hm, rfl⟩)
  | destroy => exact .inr (.inr ⟨_, rfl⟩)
  | edit i e => exact .inl (map_updateDocument c i Document.owner fun d => by cases e <;> rfl)
  | focus => exact .inl rfl
  | dispose => exact .inl (map_owner_releaseWatches c)
  | dropHandle => exact .inl rfl
  | returns => exact .inl rfl
  | busy => exact .inl rfl
  | discard => exact .inl rfl
  | resume =>
    rw [documents_publishSome]
    exact .inl rfl
  | hand => exact .inl rfl
  | handed => exact .inl rfl
  | update => exact .inl rfl
  | record => exact .inl rfl
  | leave => exact .inl rfl
  | retract => exact .inl rfl
  | finish => exact .inl rfl
  | letGo => exact .inl (map_owner_releaseWatch (c.setStack _) _)
  | called => exact .inl rfl
  | call =>
    rw [documents_forgetDocument]
    exact .inl rfl
  | miss => exact .inl rfl
  | @attach i id key stack hs hw =>
    obtain ⟨_, _, hattach, _⟩ := attach_of_isWatched (c.setStack stack) i id key hw
    rw [hattach]
    exact .inl (map_owner_releaseWatch (c.setStack stack) id)
  | detach => exact .inl rfl
  | reap => exact .inl (map_owner_releaseWatches c)

theorem getElem?_of_map_owner (h : c'.documents.map Document.owner = c.documents.map Document.owner)
    {i : DocumentIndex} {d : Document} (hd : c.documents[i]? = some d) :
    ∃ d', c'.documents[i]? = some d' ∧ d'.id = d.id ∧ d'.isDestroyed = d.isDestroyed := by
  have hmap := congrArg (·[i]?) h
  simp only [List.getElem?_map, hd, Option.map_some] at hmap
  obtain ⟨d', hd', howner⟩ := Option.map_eq_some_iff.mp hmap
  exact ⟨d', hd', congrArg Prod.fst howner, congrArg Prod.snd howner⟩

/-- A document keeps its place and its identity. -/
theorem Change.getElem?_id (h : Change rule c shown c') {i : DocumentIndex} {d : Document}
    (hd : c.documents[i]? = some d) : ∃ d', c'.documents[i]? = some d' ∧ d'.id = d.id := by
  rcases h.documents_or with howner | ⟨e, _, hopened⟩ | ⟨j, hdestroyed⟩
  · obtain ⟨d', hd', hid, _⟩ := getElem?_of_map_owner howner hd
    exact ⟨d', hd', hid⟩
  · rw [hopened]
    exact ⟨d, getElem?_append_of_eq_some hd, rfl⟩
  · rw [hdestroyed, getElem?_updateDocument, hd]
    split
    · exact ⟨d.destroy, rfl, rfl⟩
    · exact ⟨d, rfl, rfl⟩

theorem of_getElem?_opened {ds : List Document} {x d : Document} {i : Nat}
    (h : (ds ++ [x])[i]? = some d) : ds[i]? = some d ∨ i = ds.length ∧ d = x := by
  rw [List.getElem?_append] at h
  split at h
  · exact .inl h
  · next hi =>
    have hlast := (List.getElem?_eq_some_iff.mp h).1
    rw [List.length_singleton] at hlast
    exact .inr ⟨by omega, List.mem_singleton.mp (List.mem_of_getElem? h)⟩

/-- Live documents stay apart, because no document is opened under the identity of a live one. -/
theorem liveApart_of_change (h : LiveApart c.documents) (hchange : Change rule c shown c')
    (hrule : ∀ c m, rule c m = true → c.opensFreed m = true) : LiveApart c'.documents := by
  rcases hchange.documents_or with howner | ⟨x, hm, hopened⟩ | ⟨k, hdestroyed⟩
  · intro i j d' e' hd' he' hdlive helive hid
    obtain ⟨d, hd, hdid, hdd⟩ := getElem?_of_map_owner howner.symm hd'
    obtain ⟨e, he, heid, hed⟩ := getElem?_of_map_owner howner.symm he'
    exact h i j d e hd he (hdd.trans hdlive) (hed.trans helive) (hdid.trans (hid.trans heid.symm))
  · have hnew := hrule _ _ hm
    simp only [opensFreed, Bool.and_eq_true, Bool.not_eq_true', List.any_eq_false,
      decide_eq_true_eq, not_and] at hnew
    have hapart {i : DocumentIndex} {d : Document} (hd : c.documents[i]? = some d)
        (hlive : d.isDestroyed = false) : d.id ≠ x.id :=
      hnew.2 d (List.mem_of_getElem? hd) (by simp [hlive])
    rw [hopened]
    intro i j d e hd' he' hdlive helive hid
    rcases of_getElem?_opened hd' with hd | ⟨hi, rfl⟩ <;>
      rcases of_getElem?_opened he' with he | ⟨hj, rfl⟩
    · exact h i j d e hd he hdlive helive hid
    · exact absurd hid (hapart hd hdlive)
    · exact absurd hid.symm (hapart he helive)
    · exact hi.trans hj.symm
  · rw [hdestroyed]
    intro i j d' e' hd' he' hdlive helive hid
    have hlive {l : DocumentIndex} {x : Document} (hx : (c.updateDocument k
        Document.destroy).documents[l]? = some x) (hxlive : x.isDestroyed = false) :
        c.documents[l]? = some x := by
      rw [getElem?_updateDocument] at hx
      split at hx
      · obtain ⟨y, _, rfl⟩ := Option.map_eq_some_iff.mp hx
        cases hxlive
      · exact hx
    exact h i j d' e' (hlive hd' hdlive) (hlive he' helive) hdlive helive hid

/-- The cycle carries the identity of its document. -/
def Named (c : Configuration) (cycle : Cycle) : Prop :=
  ∃ d, c.documents[cycle.document]? = some d ∧ d.id = cycle.id

/-- Every cycle that is pending, or whose result is asked for, carries the identity of its
document. -/
structure AllNamed (c : Configuration) : Prop where
  pending : ∀ cycle ∈ c.pending, c.Named cycle
  asked : ∀ cycle place, .asking cycle place ∈ c.stack → c.Named cycle

/-- A pending cycle was pending before, or is put back, or has just been started. -/
theorem Change.mem_pending (h : Change rule c shown c') {cycle : Cycle}
    (hcycle : cycle ∈ c'.pending) :
    cycle ∈ c.pending ∨ (∃ place, .asking cycle place ∈ c.stack) ∨ c.Named cycle := by
  cases h with
  | register => exact .inl hcycle
  | release => exact .inl hcycle
  | skip => exact .inl hcycle
  | start hc hhandle hd =>
    rcases List.mem_append.mp hcycle with hcycle | hcycle
    · exact .inl hcycle
    · rw [List.mem_singleton.mp hcycle]
      exact .inr (.inr ⟨_, hd, rfl⟩)
  | watch => exact .inl hcycle
  | watchDestroyed =>
    rw [forgetDocument_eq, pending_publishSome] at hcycle
    exact .inl hcycle
  | poll => exact .inl ((List.eraseIdx_sublist _ _).subset hcycle)
  | abandon => exact .inl ((List.eraseIdx_sublist _ _).subset hcycle)
  | openDocument => exact .inl hcycle
  | destroy => exact .inl hcycle
  | edit => exact .inl hcycle
  | focus => exact .inl hcycle
  | dispose => exact .inl hcycle
  | dropHandle => exact .inl hcycle
  | returns => exact .inl hcycle
  | busy hm hs =>
    rcases (List.mem_insertIdx (Nat.min_le_right _ _)).mp hcycle with rfl | hcycle
    · exact .inr (.inl ⟨_, by rw [hs]; exact List.mem_cons_self⟩)
    · exact .inl hcycle
  | discard => exact .inl hcycle
  | resume =>
    rw [pending_publishSome] at hcycle
    exact .inl hcycle
  | hand => exact .inl hcycle
  | handed => exact .inl hcycle
  | update => exact .inl hcycle
  | record => exact .inl hcycle
  | leave => exact .inl hcycle
  | retract => exact .inl hcycle
  | finish => exact .inl hcycle
  | letGo =>
    rw [pending_releaseWatch] at hcycle
    exact .inl hcycle
  | called => exact .inl hcycle
  | call =>
    rw [forgetDocument_eq, pending_publishSome] at hcycle
    exact .inl hcycle
  | miss => exact .inl hcycle
  | @attach i id key stack hs hw =>
    have hw : (c.setStack stack).provider.tracker.isWatched id = true := hw
    rw [Configuration.attach, if_pos hw] at hcycle
    dsimp only at hcycle
    split at hcycle
    · exact .inl (pending_releaseWatch (c.setStack stack) id ▸ hcycle)
    · next d hd =>
      rcases List.mem_append.mp hcycle with hcycle | hcycle
      · exact .inl (pending_releaseWatch (c.setStack stack) id ▸ hcycle)
      · rw [List.mem_singleton.mp hcycle]
        obtain ⟨d', hd', hid, _⟩ := getElem?_of_map_owner
          (map_owner_releaseWatch (c.setStack stack) id).symm hd
        exact .inr (.inr ⟨d', hd', hid⟩)
  | detach => exact .inl hcycle
  | reap => exact .inl hcycle

/-- So cycles go on carrying it. -/
theorem allNamed_of_change (h : c.AllNamed) (hchange : Change rule c shown c') : c'.AllNamed := by
  have hnamed {cycle : Cycle} (hcycle : c.Named cycle) : c'.Named cycle := by
    obtain ⟨d, hd, hid⟩ := hcycle
    obtain ⟨d', hd', hid'⟩ := hchange.getElem?_id hd
    exact ⟨d', hd', hid'.trans hid⟩
  constructor
  case pending =>
    intro cycle hcycle
    rcases hchange.mem_pending hcycle with hcycle | ⟨place, hasked⟩ | hcycle
    · exact hnamed (h.pending cycle hcycle)
    · exact hnamed (h.asked cycle place hasked)
    · exact hnamed hcycle
  case asked =>
    intro cycle place hmem
    cases hchange.restacked with
    | asked hc hcycle hs =>
      rw [hs] at hmem
      rcases List.mem_cons.mp hmem with heq | hmem
      · obtain ⟨rfl, rfl⟩ := Frame.asking.inj heq
        exact hnamed (h.pending _ hcycle : c.Named _)
      · exact hnamed (h.asked cycle place hmem)
    | worked done next hs hs' hnext =>
      rw [hs'] at hmem
      rcases List.mem_append.mp hmem with hmem | hmem
      · cases hnext _ hmem
      · refine hnamed (h.asked cycle place ?_)
        rw [hs]
        exact List.mem_append_right _ hmem

end Configuration

end DiagnosticRelay
