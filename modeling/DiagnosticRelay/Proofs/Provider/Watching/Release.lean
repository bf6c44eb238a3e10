import DiagnosticRelay.Proofs.Provider.Watching.Upkeep

/-!
# Keeping and releasing watches

The changes that take a frame about a watch off the stack: a watch that has been put on a document
is kept, or found to have been called already, and the watch of a destroyed document is let go.
Each is about one identity, so `Coherent.pop` asks for the flag and the watch of that identity
only.
-/

namespace DiagnosticRelay.Configuration

variable {c : Configuration} {i : DocumentIndex} {d : Document}

theorem unwatch_of_watches_eq_nil (h : d.watches = []) (key : Nat) : d.unwatch key = d := by
  cases d
  simp_all [Document.unwatch]

/-- Letting go of a watch that is on no document any more. -/
theorem releaseWatch_eq {x : DocumentId} (h : ∀ ref, c.provider.watches x = some ref →
    ∃ d, c.documents[ref.document]? = some d ∧ d.watches = []) :
    c.releaseWatch x = { c with provider := c.provider.setWatch x none } := by
  unfold releaseWatch
  cases hentry : c.provider.watches x with
  | none =>
    have hsame : c.provider.setWatch x none = c.provider := by
      have hwatches : (fun e => if e = x then none else c.provider.watches e) =
          c.provider.watches := by
        funext e
        split
        · next he => rw [he, hentry]
        · rfl
      unfold Provider.setWatch
      rw [hwatches]
    rw [hsame]
  | some ref =>
    obtain ⟨d, hd, hnone⟩ := h ref hentry
    have hdocuments : (c.updateDocument ref.document (·.unwatch ref.key)).documents =
        c.documents := by
      apply List.ext_getElem?
      intro j
      rw [getElem?_updateDocument]
      split
      · next hij =>
        rw [← hij, hd, Option.map_some, unwatch_of_watches_eq_nil hnone]
      · rfl
    show ({ c with
      documents := (c.updateDocument ref.document (·.unwatch ref.key)).documents
      provider := c.provider.setWatch x none } : Configuration) = _
    rw [hdocuments]

/-- The piece of work on top, about one identity, is done. Flag and watch are as they should be. -/
theorem AttachedAt.pop {x : DocumentId} (ha : c.AttachedAt x) {c' : Configuration} {f : Frame}
    {stack : List Frame} (hs : c.stack = f :: stack) (hstack : c'.stack = stack)
    (htracker : c'.provider.tracker = c.provider.tracker)
    (hdocuments : c'.documents = c.documents)
    (hflagged : c.provider.tracker.isWatched x = true →
      ∃ (i : DocumentIndex) (d : Document) (key : Nat), c'.documents[i]? = some d ∧ d.id = x ∧
        c'.Holds i d key)
    (hentry : ∀ ref, c'.provider.watches x = some ref →
      (c.provider.tracker.isWatched x = true ∨ .forgetting x ∈ stack) ∧
        ∃ d, c.documents[ref.document]? = some d ∧ d.id = x) : c'.AttachedAt x := by
  have hgone : c.IsGone x → c'.IsGone x := isGone_of_documents hdocuments.symm
  have htail : c'.stack = c.stack.tail := by rw [hs, hstack]; rfl
  constructor
  case flagged =>
    rw [htracker]
    exact hflagged
  case watched =>
    rw [hdocuments, htracker]
    exact ha.watched
  case entry =>
    rw [htracker, hdocuments, hstack]
    exact hentry
  case forgetting =>
    rw [htracker, htail]
    intro hmem
    exact (ha.forgetting (List.mem_of_mem_tail hmem)).imp_right hgone
  case attaching =>
    intro k key
    have hx := (ha.attaching k key).1
    rw [← htail] at hx
    exact ⟨fun hm => hgone (hx (List.mem_of_mem_tail hm)),
      fun hm => .inr (hgone (hx (List.mem_of_head? hm)))⟩
  case destroying =>
    intro w ws hid
    have hx := (ha.destroying w ws hid).1
    rw [← htail] at hx
    exact ⟨fun hm => hx (List.mem_of_mem_tail hm), fun hm => absurd (List.mem_of_head? hm) hx⟩

namespace Coherent

/-- A document that is gone has no watches on it. -/
theorem watches_of_isGone (h : c.Coherent) (hd : c.documents[i]? = some d)
    (hgone : c.IsGone d.id) : d.watches = [] := by
  rcases h.held with hreaped | ha
  · exact hreaped.watches i d hd
  · by_cases hne : d.watches = []
    · exact hne
    · exact absurd hgone (h.not_isGone hd ((ha d.id).watched i d hd rfl hne).1)

/-- The piece of work on top is done. It was about one identity, for which flag and watch are left
as they should be. -/
theorem pop (h : c.Coherent) (ha : c.Attached) {c' : Configuration} {f : Frame} {x : DocumentId}
    {stack : List Frame} (hs : c.stack = f :: stack) (hf : f.watchId? = some x)
    (hstack : c'.stack = stack) (htracker : c'.provider.tracker = c.provider.tracker)
    (hdisposed : c'.provider.isDisposed = c.provider.isDisposed)
    (hdocuments : c'.documents = c.documents)
    (hentries : ∀ id, id ≠ x → c'.provider.watches id = c.provider.watches id)
    (hpending : ∀ cycle ∈ c'.pending, c.Backed cycle)
    (hflagged : c.provider.tracker.isWatched x = true →
      ∃ (i : DocumentIndex) (d : Document) (key : Nat), c'.documents[i]? = some d ∧ d.id = x ∧
        c'.Holds i d key)
    (hentry : ∀ ref, c'.provider.watches x = some ref →
      (c.provider.tracker.isWatched x = true ∨ .forgetting x ∈ stack) ∧
        ∃ d, c.documents[ref.document]? = some d ∧ d.id = x) : c'.Coherent := by
  have hmem {g : Frame} (hg : g ∈ stack) : g ∈ c.stack := by
    rw [hs]
    exact List.mem_cons_of_mem f hg
  have hgone {id : DocumentId} : c.IsGone id → c'.IsGone id :=
    isGone_of_documents hdocuments.symm
  constructor
  case distinct =>
    rw [hdocuments]
    exact h.distinct
  case recorded =>
    rw [htracker]
    exact h.recorded
  case disposed =>
    rw [hdisposed, htracker]
    exact h.disposed
  case updates =>
    intro u hu
    rw [Configuration.updates, hstack] at hu
    obtain ⟨g, hg, hgu⟩ := List.mem_filterMap.mp hu
    exact h.updates u (List.mem_filterMap.mpr ⟨g, hmem hg, hgu⟩)
  case cycles =>
    intro cycle hcycle
    rw [Configuration.cycles, hstack] at hcycle
    have hbacked : c.Backed cycle := by
      rcases List.mem_append.mp hcycle with hcycle | hcycle
      · exact hpending cycle hcycle
      · obtain ⟨g, hg, hgc⟩ := List.mem_filterMap.mp hcycle
        exact h.cycles cycle (List.mem_append_right _ (List.mem_filterMap.mpr ⟨g, hmem hg, hgc⟩))
    refine ⟨by rw [hdocuments]; exact hbacked.document, ?_⟩
    rw [htracker, hdisposed]
    exact hbacked.state.imp_right fun hg => hg.imp_left hgone
  case held =>
    refine .inr (ha.of_quietAt x ?_ ?_)
    · intro id hid
      refine .of_documents hdocuments ?_ (by rw [htracker]) (hentries id hid) ?_
      · intro g hg hg'
        rw [hs] at hg
        obtain rfl := Option.some.inj hg
        exact hid (Option.some.inj (hg'.symm.trans hf))
      · intro g hg
        have hne : g ≠ f := by
          rintro rfl
          exact hid (Option.some.inj (hg.symm.trans hf))
        simp [hs, hstack, hne]
    · exact (ha x).pop hs hstack htracker hdocuments hflagged hentry

/-- The watch of a destroyed document is let go. -/
theorem letGo (h : c.Coherent) {x : DocumentId} {stack : List Frame}
    (hs : c.stack = .forgetting x :: stack) : ((c.setStack stack).releaseWatch x).Coherent := by
  have ha := h.attached_of_head hs (Option.some_ne_none _)
  obtain ⟨hflag, hgone⟩ := (ha x).forgetting (by rw [hs]; exact List.mem_cons_self)
  have hrelease : (c.setStack stack).releaseWatch x =
      { c.setStack stack with provider := c.provider.setWatch x none } := by
    apply releaseWatch_eq
    intro ref href
    obtain ⟨_, d, hd, rfl⟩ := (ha x).entry ref href
    exact ⟨d, hd, h.watches_of_isGone hd hgone⟩
  rw [hrelease]
  refine h.pop ha hs rfl rfl rfl rfl rfl ?_ ?_ ?_ ?_
  · intro id hid
    simp [Provider.setWatch, hid]
  · intro cycle hcycle
    exact h.cycles cycle (List.mem_append_left _ hcycle)
  · intro hflag'
    cases hflag.symm.trans hflag'
  · intro ref href
    simp [Provider.setWatch] at href

/-- A watch that was put on a document is kept, and the document compiled. -/
theorem attach (h : c.Coherent) {x : DocumentId} {key : Nat} {stack : List Frame}
    (hs : c.stack = .attaching i x key :: stack)
    (hw : c.provider.tracker.isWatched x = true) :
    ((c.setStack stack).attach i x key).1.Coherent := by
  have ha := h.attached_of_head hs (Option.some_ne_none _)
  have hhead : c.stack.head? = some (.attaching i x key) := by rw [hs]; rfl
  obtain ⟨j, d, key', hd, rfl, hholds⟩ := (ha x).flagged hw
  -- no listener has been called since the watch was put on the document, so it is the same watch
  have hfresh : j = i ∧ key' = key ∧ c.provider.watches d.id = none ∧
      d.watches = [⟨key', d.id⟩] ∧ d.isDestroyed = false := by
    cases hholds with
    | kept hentry hwatches hlive =>
      rcases ((ha d.id).attaching i key).2 hhead with hnone | hgone
      · cases hnone.symm.trans hentry
      · exact absurd hgone (h.not_isGone hd hlive)
    | fresh hhead' hentry hwatches hlive =>
      obtain ⟨rfl, _, rfl⟩ := Frame.attaching.inj (Option.some.inj (hhead'.symm.trans hhead))
      exact ⟨rfl, rfl, hentry, hwatches, hlive⟩
    | taken hhead' => cases hhead'.symm.trans hhead
  obtain ⟨rfl, rfl, hentry, hwatches, hlive⟩ := hfresh
  have hattach : ((c.setStack stack).attach j d.id key').1 =
      { c.setStack stack with
        provider := c.provider.setWatch d.id (some ⟨j, key'⟩)
        pending := c.pending ++ [⟨c.nextCycle, j, d.id, false⟩]
        nextCycle := c.nextCycle + 1 } := by
    simp [Configuration.attach, releaseWatch, setStack, hw, hentry, hd, startCycle]
  rw [hattach]
  refine h.pop ha hs rfl rfl rfl rfl rfl ?_ ?_ ?_ ?_
  · intro id hid
    simp [Provider.setWatch, hid]
  · intro cycle hcycle
    rcases List.mem_append.mp hcycle with hcycle | hcycle
    · exact h.cycles cycle (List.mem_append_left _ hcycle)
    · rw [List.mem_singleton.mp hcycle]
      exact ⟨⟨d, hd, rfl⟩, .inl hw⟩
  · intro _
    refine ⟨j, d, key', hd, rfl, .kept ?_ hwatches hlive⟩
    simp [Provider.setWatch]
  · intro ref href
    simp only [Provider.setWatch, if_true] at href
    obtain rfl := Option.some.inj href
    exact ⟨.inl hw, d, hd, rfl⟩

/-- A watch that has been called already is not kept. -/
theorem detach (h : c.Coherent) {x : DocumentId} {key : Nat} {stack : List Frame}
    (hs : c.stack = .attaching i x key :: stack)
    (hw : c.provider.tracker.isWatched x = false) : (c.setStack stack).Coherent := by
  have ha := h.attached_of_head hs (Option.some_ne_none _)
  refine h.pop ha hs rfl rfl rfl rfl rfl (fun _ _ => rfl) ?_ ?_ ?_
  · intro cycle hcycle
    exact h.cycles cycle (List.mem_append_left _ hcycle)
  · intro hflag
    cases hw.symm.trans hflag
  · intro ref href
    obtain ⟨hstate, hdocument⟩ := (ha x).entry ref href
    rw [hs] at hstate
    exact ⟨by simpa using hstate, hdocument⟩

end Coherent

end DiagnosticRelay.Configuration
