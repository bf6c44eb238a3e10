import DiagnosticRelay.Proofs.Provider.Reissue

/-!
# How identities stand after each change

Moves are made while only compilers are being asked, so no watch is on its way when a document is
opened, watched or destroyed, or the provider is disposed of. The work that follows brings the watch
to its place, or takes it away, before the next move. Nothing is said any more once nothing keeps
the provider's state alive (`standing_change`).
-/

namespace DiagnosticRelay.Configuration

variable {rule : Configuration → Move → Bool} {c c' : Configuration} {id : DocumentId}
  {i : DocumentIndex} {d : Document} {shown : List Event}

/-- Only compilers are being asked. -/
def OnlyAsking (stack : List Frame) : Prop := ∀ f ∈ stack, f.isAsking = true

theorem OnlyAsking.watchId? {stack : List Frame} (h : OnlyAsking stack) {f : Frame}
    (hf : f ∈ stack) : f.watchId? = none := by
  have hasking := h f hf
  cases f with
  | asking => rfl
  | _ => cases hasking

theorem OnlyAsking.notMem {stack : List Frame} (h : OnlyAsking stack) {f : Frame}
    (hf : f.watchId? = some id) : f ∉ stack := fun hmem => by
  rw [h.watchId? hmem] at hf
  cases hf

theorem OnlyAsking.watchId?_ne {stack : List Frame} (h : OnlyAsking stack) (id : DocumentId) :
    ∀ f ∈ stack, f.watchId? ≠ some id := by
  intro f hf
  rw [h.watchId? hf]
  exact (Option.some_ne_none id).symm

theorem OnlyAsking.head (h : OnlyAsking c.stack) (id : DocumentId) :
    ∀ f, c.stack.head? = some f → f.watchId? ≠ some id :=
  fun f hf => h.watchId?_ne id f (List.mem_of_head? hf)

/-- While only compilers are being asked, an identity is free with no watch kept in its name, or a
document is watched and its watch kept. -/
theorem Standing.of_onlyAsking (h : c.Standing id) (hasking : OnlyAsking c.stack) :
    (c.provider.tracker.isWatched id = false ∧ c.provider.watches id = none ∧ c.Bare id) ∨
    ∃ (i : DocumentIndex) (d : Document) (key : Nat), c.Bears i d key ∧ d.id = id ∧
      c.provider.tracker.isWatched id = true ∧ c.provider.watches id = some ⟨i, key⟩ := by
  cases h with
  | free hflag hbare hentry =>
    refine .inl ⟨hflag, ?_, hbare⟩
    cases hwatch : c.provider.watches id with
    | none => rfl
    | some ref => exact absurd (hentry ref hwatch).1 (hasking.notMem rfl)
  | kept hbears hid hflag hentry => exact .inr ⟨_, _, _, hbears, hid, hflag, hentry⟩
  | fresh hbears hid hflag hentry hs =>
    exact absurd (hs ▸ List.mem_cons_self) (hasking.notMem (f := .attaching _ id _) rfl)
  | @taken w _ hid hbare hflag hentry hs =>
    exact absurd (hs ▸ List.mem_cons_self)
      (hasking.notMem (f := .destroying [w]) (congrArg some hid))

/-! ## Moves -/

/-- A live document is flagged, and a watch put on it. -/
theorem standing_watch (h : ∀ id, c.Standing id) (hasking : OnlyAsking c.stack)
    (hd : c.documents[i]? = some d) (hflag : c.provider.tracker.isWatched d.id = false)
    (hlive : d.isDestroyed = false) (id : DocumentId) :
    ((c.flag i d).updateDocument i (·.watch ⟨c.nextKey, d.id⟩)).Standing id := by
  by_cases hid : id = d.id
  · subst hid
    rcases (h d.id).of_onlyAsking hasking with ⟨_, hentry, hbare⟩ | ⟨_, _, _, _, _, hflag', _⟩
    · have hdocument (j : DocumentIndex) := getElem?_updateDocument (c.flag i d) i j
        (·.watch ⟨c.nextKey, d.id⟩)
      refine .fresh (i := i) (d := d.watch ⟨c.nextKey, d.id⟩) ⟨?_, hlive, ?_, ?_⟩ rfl ?_ hentry rfl
        (hasking.watchId?_ne d.id)
      · rw [hdocument, if_pos rfl]
        exact congrArg (Option.map _) hd
      · simp [Document.watch, hbare i d hd rfl]
      · intro j e he heid hji
        rw [hdocument, if_neg (Ne.symm hji)] at he
        exact hbare j e he heid
      · simp [flag, setTracker, updateDocument]
    · cases hflag.symm.trans hflag'
  · refine (h id).quietAt (.of_updateDocument (·.watch ⟨c.nextKey, d.id⟩) (fun _ => rfl) hd hid rfl
      (hasking.head id) ?_ rfl ?_)
    · simp [flag, setTracker, updateDocument, hid]
    · intro f hf
      have hne : f ≠ .attaching i d.id c.nextKey := by
        rintro rfl
        exact hid (Option.some.inj hf).symm
      simp [flag, updateDocument, hne]

/-- The identity of a document is forgotten, with work `b` that is about this identity alone. -/
theorem standing_forgetDocument {b : Configuration} {x : DocumentId} (h : ∀ id, c.Standing id)
    (hdocuments : b.documents = c.documents) (hentries : b.provider.watches = c.provider.watches)
    (hflags : ∀ id, id ≠ x → b.provider.tracker.isWatched id = c.provider.tracker.isWatched id)
    (hhead : ∀ id, id ≠ x → ∀ f, c.stack.head? = some f → f.watchId? ≠ some id)
    (hwork : ∀ id, id ≠ x → ∀ f : Frame, f.watchId? = some id → (f ∈ b.stack ↔ f ∈ c.stack))
    (hbare : c.Bare x) (hentry : ∀ ref, c.provider.watches x = some ref →
      ∃ d, c.documents[ref.document]? = some d ∧ d.id = x)
    (hcalled : ∀ w ws, w.id = x → .destroying (w :: ws) ∉ b.stack) (id : DocumentId) :
    (b.forgetDocument x).1.Standing id := by
  have hsame : (b.forgetDocument x).1.documents = c.documents :=
    (documents_forgetDocument b x).trans hdocuments
  by_cases hid : id = x
  · subst hid
    refine .free ?_ ?_ ?_ ?_
    · rw [isWatched_forgetDocument, if_pos rfl]
    · rw [Bare, hsame]
      exact hbare
    · intro ref href
      rw [watches_forgetDocument, hentries] at href
      rw [hsame]
      exact ⟨(mem_stack_forgetDocument rfl).mpr (.inl rfl), hentry ref href⟩
    · intro w ws hw hmem
      have hwatch : (Frame.destroying (w :: ws)).watchId? = some id := congrArg some hw
      rcases (mem_stack_forgetDocument hwatch).mp hmem with heq | hmem
      · cases heq
      · exact hcalled w ws hw hmem
  · refine (h id).quietAt (.of_documents hsame (hhead id hid) ?_ ?_ ?_)
    · rw [isWatched_forgetDocument, if_neg hid, hflags id hid]
    · rw [watches_forgetDocument, hentries]
    · intro f hf
      have hne : f ≠ .forgetting x := by
        rintro rfl
        exact hid (Option.some.inj hf).symm
      rw [mem_stack_forgetDocument hf, hwork id hid f hf]
      exact or_iff_right hne

/-- A destroyed document is flagged, and forgotten at once. -/
theorem standing_watchDestroyed (h : ∀ id, c.Standing id) (hasking : OnlyAsking c.stack)
    (hflag : c.provider.tracker.isWatched d.id = false) (id : DocumentId) :
    ((c.flag i d).forgetDocument d.id).1.Standing id := by
  rcases (h d.id).of_onlyAsking hasking with ⟨_, hentry, hbare⟩ | ⟨_, _, _, _, _, hflag', _⟩
  · refine standing_forgetDocument (b := c.flag i d) h rfl rfl ?_ (fun id _ => hasking.head id) ?_
      hbare ?_ ?_ id
    · intro id hid
      simp [flag, setTracker, hid]
    · intro id hid f hf
      have hne : f ≠ .attaching i d.id c.nextKey := by
        rintro rfl
        exact hid (Option.some.inj hf).symm
      simp [flag, hne]
    · intro ref href
      cases hentry.symm.trans href
    · intro w ws hw hmem
      have hmem : .destroying (w :: ws) ∈ c.stack := by simpa [flag] using hmem
      exact hasking.notMem (f := .destroying (w :: ws)) (congrArg some hw) hmem
  · cases hflag.symm.trans hflag'

/-- A document is opened with no watches. -/
theorem standing_openDocument (h : c.Standing id) (hc : c.advance = none)
    (hasking : OnlyAsking c.stack) (hwatches : d.watches = []) :
    ({ c with documents := c.documents ++ [d] } : Configuration).Standing id := by
  by_cases hid : id = d.id
  · rcases h.of_onlyAsking hasking with ⟨hflag, hentry, hbare⟩ |
      ⟨i, e, key, hbears, heid, hflag, hentry⟩
    · refine .free hflag ?_ ?_ fun w ws hw => hasking.notMem (f := .destroying (w :: ws))
        (congrArg some hw)
      · intro j e he heid
        rcases of_getElem?_concat he with he | rfl
        · exact hbare j e he heid
        · exact hwatches
      · intro ref href
        cases hentry.symm.trans href
    · refine .kept ⟨getElem?_append_of_eq_some hbears.document, hbears.live, hbears.watches, ?_⟩
        heid hflag hentry (hasking.watchId?_ne id)
      intro j e' he' heid' hji
      rcases of_getElem?_concat he' with he' | rfl
      · exact hbears.others j e' he' heid' hji
      · exact hwatches
  · exact h.quietAt (quietAt_openDocument hc hid)

/-- A live document is destroyed; if it has a watch, this is taken to be called next. -/
theorem standing_destroy (h : ∀ id, c.Standing id) (hasking : OnlyAsking c.stack)
    (hapart : LiveApart c.documents) (hd : c.documents[i]? = some d) (hlive : d.isDestroyed = false)
    (id : DocumentId) :
    ((c.updateDocument i Document.destroy).push (.destroying d.watches)).Standing id := by
  have hdocument (j : DocumentIndex) := getElem?_updateDocument c i j Document.destroy
  have hself : (c.updateDocument i Document.destroy).documents[i]? = some d.destroy := by
    rw [hdocument, if_pos rfl, hd]
    rfl
  have hbare (hothers : ∀ (j : DocumentIndex) (e : Document), c.documents[j]? = some e →
      e.id = d.id → j ≠ i → e.watches = []) :
      ((c.updateDocument i Document.destroy).push (.destroying d.watches)).Bare d.id := by
    intro j e he heid
    by_cases hij : i = j
    · subst hij
      obtain rfl := Option.some.inj (hself.symm.trans he)
      rfl
    · have he : (c.updateDocument i Document.destroy).documents[j]? = some e := he
      rw [hdocument, if_neg hij] at he
      exact hothers j e he heid (Ne.symm hij)
  by_cases hid : id = d.id
  · subst hid
    rcases (h d.id).of_onlyAsking hasking with ⟨hflag, hentry, hnone⟩ |
      ⟨j, e, key, hbears, heid, hflag, hentry⟩
    · refine .free hflag (hbare fun j e he heid _ => hnone j e he heid) ?_ ?_
      · intro ref href
        cases hentry.symm.trans href
      · intro w ws hw hmem
        rw [stack_push, hnone i d hd rfl] at hmem
        exact hasking.notMem (f := .destroying (w :: ws)) (congrArg some hw)
          (by simpa using hmem)
    · obtain rfl := hapart i j d e hd hbears.document hlive hbears.live heid.symm
      obtain rfl := Option.some.inj (hbears.document.symm.trans hd)
      refine .taken (w := ⟨key, e.id⟩) rfl (hbare hbears.others) hflag ?_ ?_
        (hasking.watchId?_ne e.id)
      · intro ref href
        obtain rfl := Option.some.inj (hentry.symm.trans href)
        exact ⟨e.destroy, hself, rfl⟩
      · rw [stack_push, hbears.watches]
        rfl
  · refine (h id).quietAt (.of_updateDocument Document.destroy (fun _ => rfl) hd hid rfl
      (hasking.head id) rfl rfl ?_)
    intro f hf
    refine List.mem_cons.trans (or_iff_right ?_)
    rintro rfl
    rcases (h d.id).watches_or hd rfl with hnone | ⟨key, hbears⟩
    · rw [hnone] at hf
      cases hf
    · rw [hbears.watches] at hf
      exact hid (Option.some.inj hf).symm

/-- The provider is disposed of, and takes back every watch. -/
theorem standing_disposed (h : ∀ id, c.Standing id) (hasking : OnlyAsking c.stack)
    (id : DocumentId) : c.disposed.Standing id := by
  refine .free rfl ?_ ?_ ?_
  · intro j e he heid
    obtain ⟨d, hd, rfl⟩ := getElem?_of_releaseWatches he
    show (d.watches.filter fun w => c.provider.watches w.id ≠ some ⟨j, w.key⟩) = []
    rcases (h d.id).of_onlyAsking hasking with ⟨_, _, hbare⟩ | ⟨k, d', key, hbears, hid, _, hentry⟩
    · rw [hbare j d hd rfl]
      rfl
    · by_cases hjk : j = k
      · subst hjk
        obtain rfl := Option.some.inj (hbears.document.symm.trans hd)
        rw [hbears.watches]
        simp [hentry]
      · rw [hbears.others j d hd hid.symm hjk]
        rfl
  · intro ref href
    cases href
  · exact fun w ws hw => hasking.notMem (f := .destroying (w :: ws)) (congrArg some hw)

/-! ## Work -/

/-- The piece of work on top, about one identity, is done, and no other identity is touched. -/
theorem standing_popped {b : Configuration} (h : ∀ id, c.Standing id) {f : Frame} {x : DocumentId}
    {stack : List Frame} (hs : c.stack = f :: stack) (hf : f.watchId? = some x)
    (hstack : b.stack = stack)
    (hflags : b.provider.tracker.isWatched = c.provider.tracker.isWatched)
    (hentries : ∀ id, id ≠ x → b.provider.watches id = c.provider.watches id)
    (hdocuments : b.documents = c.documents) (hself : b.Standing x) (id : DocumentId) :
    b.Standing id := by
  by_cases hid : id = x
  · rw [hid]
    exact hself
  · refine (h id).quietAt (.of_documents hdocuments ?_ (by rw [hflags]) (hentries id hid) ?_)
    · intro g hg hgid
      rw [hs] at hg
      obtain rfl := Option.some.inj hg
      exact hid (Option.some.inj (hgid.symm.trans hf))
    · intro g hg
      have hne : g ≠ f := by
        rintro rfl
        exact hid (Option.some.inj (hg.symm.trans hf))
      rw [hstack, hs, List.mem_cons]
      exact (or_iff_right hne).symm

/-- The watch of a destroyed document is let go. -/
theorem standing_letGo (h : ∀ id, c.Standing id) {x : DocumentId} {stack : List Frame}
    (hs : c.stack = .forgetting x :: stack) (id : DocumentId) :
    ((c.setStack stack).releaseWatch x).Standing id := by
  have hmem : .forgetting x ∈ c.stack := by
    rw [hs]
    exact List.mem_cons_self
  cases h x with
  | free hflag hbare hentry hcalled =>
    have hrelease : (c.setStack stack).releaseWatch x =
        { c.setStack stack with provider := c.provider.setWatch x none } := by
      refine releaseWatch_eq fun ref href => ?_
      obtain ⟨d, hd, hid⟩ := (hentry ref href).2
      exact ⟨d, hd, hbare _ d hd hid⟩
    rw [hrelease]
    refine standing_popped (b := { c.setStack stack with provider := c.provider.setWatch x none }) h
      hs rfl rfl rfl (fun id hid => if_neg hid) rfl ?_ id
    refine .free hflag hbare ?_ ?_
    · intro ref href
      have hnone : (c.provider.setWatch x none).watches x = none := if_pos rfl
      cases hnone.symm.trans href
    · intro w ws hw hmem'
      exact hcalled w ws hw (by rw [hs]; exact List.mem_cons_of_mem _ hmem')
  | kept hbears hid hflag hentry hwork => exact absurd rfl (hwork _ hmem)
  | fresh hbears hid hflag hentry hs' => cases hs.symm.trans hs'
  | taken hid hbare hflag hentry hs' => cases hs.symm.trans hs'

/-- The watch of a destroyed document is called. -/
theorem standing_call (h : ∀ id, c.Standing id) {w : Watch} {watches : List Watch}
    {stack : List Frame} (hs : c.stack = .destroying (w :: watches) :: stack) (id : DocumentId) :
    ((c.setStack (.destroying watches :: stack)).forgetDocument w.id).1.Standing id := by
  have hmem : .destroying (w :: watches) ∈ c.stack := by
    rw [hs]
    exact List.mem_cons_self
  cases h w.id with
  | free hflag hbare hentry hcalled => exact absurd hmem (hcalled w watches rfl)
  | kept hbears hid hflag hentry hwork => exact absurd rfl (hwork _ hmem)
  | fresh hbears hid hflag hentry hs' => cases hs.symm.trans hs'
  | taken hid hbare hflag hentry hs' hwork =>
    obtain ⟨hframe, rfl⟩ := List.cons.inj (hs.symm.trans hs')
    obtain ⟨rfl, rfl⟩ := List.cons.inj (Frame.destroying.inj hframe)
    refine standing_forgetDocument (b := c.setStack (.destroying [] :: stack)) h rfl rfl
      (fun _ _ => rfl) ?_ ?_ hbare hentry ?_ id
    · intro id hid f hf hfid
      rw [hs] at hf
      obtain rfl := Option.some.inj hf
      exact hid (Option.some.inj hfid).symm
    · intro id hid f hf
      have hne : f ≠ .destroying [w] := by
        rintro rfl
        exact hid (Option.some.inj hf).symm
      have hne' : f ≠ .destroying [] := by
        rintro rfl
        cases hf
      simp [hs, hne, hne']
    · intro w' ws hw' hmem'
      have hbelow : .destroying (w' :: ws) ∈ stack := by simpa using hmem'
      exact hwork _ hbelow (congrArg some hw')

/-- The watch that has been put on a document is kept. -/
theorem standing_attach (h : ∀ id, c.Standing id) {x : DocumentId} {key : Nat} {stack : List Frame}
    (hs : c.stack = .attaching i x key :: stack) (hw : c.provider.tracker.isWatched x = true)
    (id : DocumentId) : ((c.setStack stack).attach i x key).1.Standing id := by
  have hmem : .attaching i x key ∈ c.stack := by
    rw [hs]
    exact List.mem_cons_self
  cases h x with
  | free hflag => cases hflag.symm.trans hw
  | kept hbears hid hflag hentry hwork => exact absurd rfl (hwork _ hmem)
  | fresh hbears hid hflag hentry hs' hwork =>
    obtain ⟨hframe, rfl⟩ := List.cons.inj (hs.symm.trans hs')
    obtain ⟨rfl, -, rfl⟩ := Frame.attaching.inj hframe
    obtain ⟨pending, n, hattach, _⟩ := attach_of_isWatched (c.setStack stack) i x key hw
    have hrelease : (c.setStack stack).releaseWatch x =
        { c.setStack stack with provider := c.provider.setWatch x none } :=
      releaseWatch_eq fun ref href => by cases hentry.symm.trans href
    rw [hattach, hrelease]
    refine standing_popped (b := { c.setStack stack with
      provider := (c.provider.setWatch x none).setWatch x (some ⟨i, key⟩)
      pending := pending
      nextCycle := n }) h hs rfl rfl rfl ?_ rfl ?_ id
    · intro id hid
      exact (if_neg hid).trans (if_neg hid)
    · exact .kept ⟨hbears.document, hbears.live, hbears.watches, hbears.others⟩ hid hflag
        (if_pos rfl) hwork
  | taken hid hbare hflag hentry hs' => cases hs.symm.trans hs'

/-- A document that was destroyed already is left unwatched. -/
theorem standing_detach (h : ∀ id, c.Standing id) {x : DocumentId} {key : Nat} {stack : List Frame}
    (hs : c.stack = .attaching i x key :: stack) (hw : c.provider.tracker.isWatched x = false)
    (id : DocumentId) : (c.setStack stack).Standing id := by
  have hmem : .attaching i x key ∈ c.stack := by
    rw [hs]
    exact List.mem_cons_self
  cases h x with
  | free hflag hbare hentry hcalled =>
    refine standing_popped (b := c.setStack stack) h hs rfl rfl rfl (fun _ _ => rfl) rfl ?_ id
    refine .free hflag hbare ?_ ?_
    · intro ref href
      have hforgetting := (hentry ref href).1
      rw [hs] at hforgetting
      exact ⟨by simpa using hforgetting, (hentry ref href).2⟩
    · intro w ws hw hmem'
      exact hcalled w ws hw (by rw [hs]; exact List.mem_cons_of_mem _ hmem')
  | kept hbears hid hflag hentry hwork => exact absurd rfl (hwork _ hmem)
  | fresh hbears hid hflag => cases hw.symm.trans hflag
  | taken hid hbare hflag => cases hw.symm.trans hflag

end DiagnosticRelay.Configuration
