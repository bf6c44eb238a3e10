import DiagnosticRelay.Proofs.Provider.Asking

/-!
# Identities that are handed out again

A host need not give every document an identity of its own: two live documents have different ones,
but the identity of a destroyed document may be handed out again. The tracker's flags and the
provider's watches go by identity alone, so they cannot tell the old document from the new one.

`Standing` says how an identity stands with the documents that have it, at every moment of a run in
which listeners only listen: it is free, or exactly one of these documents is watched, or the watch
of one of them is on its way. A change that moves no watch in the name of an identity leaves it
standing as it did (`Standing.quietAt`).
-/

namespace DiagnosticRelay

/-- No two live documents have the same identity. -/
def LiveApart (documents : List Document) : Prop :=
  ∀ (i j : DocumentIndex) (d e : Document), documents[i]? = some d → documents[j]? = some e →
    d.isDestroyed = false → e.isDestroyed = false → d.id = e.id → i = j

/-- Documents as a host has them before it has a provider: live ones with identities of their own,
and all with no watches. -/
structure Recyclable (documents : List Document) : Prop where
  apart : LiveApart documents
  watches : ∀ d ∈ documents, d.watches = []

namespace Configuration

/-- Documents are opened with no watches, and under identities that no live document has. -/
def opensFreed (c : Configuration) : Move → Bool
  | .openDocument d =>
    d.watches.isEmpty && ! c.documents.any fun e => ! e.isDestroyed && decide (e.id = d.id)
  | _ => true

/-- While a listener is called nobody does anything but let it return, and documents are opened
under identities that no live document has. -/
def recycles (c : Configuration) (m : Move) : Bool :=
  c.opensFreed m &&
    match c.stack, m with
    | .calling .. :: _, .returns => true
    | .calling .. :: _, _ => false
    | _, _ => true

/-- No document of the identity has a watch. -/
def Bare (c : Configuration) (id : DocumentId) : Prop :=
  ∀ (i : DocumentIndex) (d : Document), c.documents[i]? = some d → d.id = id → d.watches = []

/-- The document is live and has one watch, in its own name. No other document of its identity has
any. -/
structure Bears (c : Configuration) (i : DocumentIndex) (d : Document) (key : Nat) : Prop where
  document : c.documents[i]? = some d
  live : d.isDestroyed = false
  watches : d.watches = [⟨key, d.id⟩]
  others : ∀ (j : DocumentIndex) (e : Document), c.documents[j]? = some e → e.id = d.id → j ≠ i →
    e.watches = []

/-- How an identity stands with the documents that have it. -/
inductive Standing (c : Configuration) (id : DocumentId) : Prop
  /-- No document is watched in its name, though one that was may have to be forgotten. -/
  | free (hflag : c.provider.tracker.isWatched id = false) (hbare : c.Bare id)
    (hentry : ∀ ref, c.provider.watches id = some ref →
      .forgetting id ∈ c.stack ∧ ∃ d, c.documents[ref.document]? = some d ∧ d.id = id)
    (hcalled : ∀ w ws, w.id = id → .destroying (w :: ws) ∉ c.stack)
  /-- A document is watched, and the provider keeps the watch. -/
  | kept {i : DocumentIndex} {d : Document} {key : Nat} (hbears : c.Bears i d key) (hid : d.id = id)
    (hflag : c.provider.tracker.isWatched id = true)
    (hentry : c.provider.watches id = some ⟨i, key⟩)
    (hwork : ∀ f ∈ c.stack, f.watchId? ≠ some id)
  /-- A document is watched, and the watch is to be kept next. -/
  | fresh {i : DocumentIndex} {d : Document} {key : Nat} {stack : List Frame}
    (hbears : c.Bears i d key) (hid : d.id = id) (hflag : c.provider.tracker.isWatched id = true)
    (hentry : c.provider.watches id = none) (hs : c.stack = .attaching i id key :: stack)
    (hwork : ∀ f ∈ stack, f.watchId? ≠ some id)
  /-- A document has been destroyed, and its watch is to be called next. -/
  | taken {w : Watch} {stack : List Frame} (hid : w.id = id) (hbare : c.Bare id)
    (hflag : c.provider.tracker.isWatched id = true)
    (hentry : ∀ ref, c.provider.watches id = some ref →
      ∃ d, c.documents[ref.document]? = some d ∧ d.id = id)
    (hs : c.stack = .destroying [w] :: stack) (hwork : ∀ f ∈ stack, f.watchId? ≠ some id)

variable {c c' : Configuration} {id : DocumentId}

namespace QuietAt

theorem bare (hq : QuietAt id c c') (h : c.Bare id) : c'.Bare id := by
  intro i d' hd' hid
  obtain ⟨d, hd, hw⟩ := hq.documents' i d' hid hd'
  rw [Document.watching_eq_iff] at hw
  exact hw.2.2.symm.trans (h i d hd (hw.1.trans hid))

theorem bears (hq : QuietAt id c c') {i : DocumentIndex} {d : Document} {key : Nat}
    (h : c.Bears i d key) (hid : d.id = id) : ∃ d', c'.Bears i d' key ∧ d'.id = id := by
  obtain ⟨d', hd', hw⟩ := hq.documents i d hid h.document
  rw [Document.watching_eq_iff] at hw
  refine ⟨d', ⟨hd', hw.2.1.trans h.live, ?_, ?_⟩, hw.1.trans hid⟩
  · rw [hw.1, hw.2.2]
    exact h.watches
  · intro j e' he' heid hne
    obtain ⟨e, he, hew⟩ := hq.documents' j e' (heid.trans (hw.1.trans hid)) he'
    rw [Document.watching_eq_iff] at hew
    exact hew.2.2.symm.trans (h.others j e he (hew.1.trans (heid.trans hw.1)) hne)

theorem document (hq : QuietAt id c c') {i : DocumentIndex}
    (h : ∃ d, c.documents[i]? = some d ∧ d.id = id) :
    ∃ d, c'.documents[i]? = some d ∧ d.id = id := by
  obtain ⟨d, hd, hid⟩ := h
  obtain ⟨d', hd', hw⟩ := hq.documents i d hid hd
  exact ⟨d', hd', (Document.watching_eq_iff.mp hw).1.trans hid⟩

end QuietAt

/-- A change that moves no watch in the name of an identity leaves it standing as it did. -/
theorem Standing.quietAt (h : c.Standing id) (hq : QuietAt id c c') : c'.Standing id := by
  cases h with
  | free hflag hbare hentry hcalled =>
    refine .free (hq.flag.trans hflag) (hq.bare hbare) ?_ ?_
    · intro ref href
      rw [hq.entry] at href
      exact (hentry ref href).imp (hq.work _ rfl).mpr hq.document
    · intro w ws hid hmem
      exact hcalled w ws hid ((hq.work (.destroying (w :: ws)) (congrArg some hid)).mp hmem)
  | kept hbears hid hflag hentry hwork =>
    obtain ⟨d', hbears', hid'⟩ := hq.bears hbears hid
    refine .kept hbears' hid' (hq.flag.trans hflag) (hq.entry.trans hentry) ?_
    intro f hf hfid
    exact hwork f ((hq.work f hfid).mp hf) hfid
  | fresh hbears hid hflag hentry hs =>
    exact absurd rfl (hq.head _ (by rw [hs]; rfl))
  | @taken w _ hid hbare hflag hentry hs =>
    exact absurd (congrArg some hid) (hq.head (.destroying [w]) (by rw [hs]; rfl))

/-- A document of the identity has no watch, or one of its own. -/
theorem Standing.watches_or (h : c.Standing id) {i : DocumentIndex} {d : Document}
    (hd : c.documents[i]? = some d) (hid : d.id = id) :
    d.watches = [] ∨ ∃ key, c.Bears i d key := by
  have hbearing {j : DocumentIndex} {e : Document} {key : Nat} (hbears : c.Bears j e key)
      (heid : e.id = id) : d.watches = [] ∨ ∃ key, c.Bears i d key := by
    by_cases hij : i = j
    · subst hij
      obtain rfl := Option.some.inj (hbears.document.symm.trans hd)
      exact .inr ⟨key, hbears⟩
    · exact .inl (hbears.others i d hd (hid.trans heid.symm) hij)
  cases h with
  | free hflag hbare => exact .inl (hbare i d hd hid)
  | kept hbears heid => exact hbearing hbears heid
  | fresh hbears heid => exact hbearing hbears heid
  | taken hwid hbare => exact .inl (hbare i d hd hid)

/-- Between two pieces of work an identity is free, or a document is watched and the watch kept. -/
theorem Standing.of_isWatched (h : c.Standing id) (hc : c.advance = none)
    (hflag : c.provider.tracker.isWatched id = true) :
    ∃ (i : DocumentIndex) (d : Document) (key : Nat), c.Bears i d key ∧ d.id = id := by
  cases h with
  | free hflag' => cases hflag.symm.trans hflag'
  | kept hbears hid => exact ⟨_, _, _, hbears, hid⟩
  | fresh hbears hid => exact ⟨_, _, _, hbears, hid⟩
  | taken hid hbare hflag hentry hs =>
    cases watchId?_of_rest hc _ (congrArg List.head? hs)

end Configuration

end DiagnosticRelay
