import DiagnosticRelay.Proofs.Provider.Change
import DiagnosticRelay.Proofs.Spellings

/-!
# Watching documents

That a document is watched is written down in three places: the tracker flags it, the provider keeps
a watch in its name, and the document has the watch on it. They are changed one after the other, and
listeners run in between. `Attached` says how they agree at every moment, a document that is being
attached or destroyed included; `Reaped` is what is left when nothing keeps the provider's state
alive. A configuration that is `Coherent` stays so (`Coherent.change`), as long as every document
has an identity of its own.
-/

namespace DiagnosticRelay

namespace Frame

/-- The cycle a frame works for. -/
def cycle? : Frame → Option Cycle
  | .asking cycle _ | .updating cycle _ | .recording cycle _ | .finishing cycle _ => some cycle
  | _ => none

/-- The update a frame has still to publish or to record. -/
def update? : Frame → Option Update
  | .updating _ u | .recording _ u => some u
  | _ => none

/-- The identity in whose name a watch changes hands in the frame. -/
def watchId? : Frame → Option DocumentId
  | .forgetting id | .attaching _ id _ => some id
  | .destroying (w :: _) => some w.id
  | _ => none

end Frame

/-- Documents as a host has them before it has a provider: each with an identity of its own, and
with no watches. -/
structure Unwatched (documents : List Document) : Prop where
  distinct : (documents.map Document.id).Nodup
  watches : ∀ d ∈ documents, d.watches = []

theorem Document.eq_of_id {documents : List Document}
    (h : (documents.map Document.id).Nodup) {i j : DocumentIndex} {d e : Document}
    (hd : documents[i]? = some d) (he : documents[j]? = some e) (hid : d.id = e.id) :
    i = j ∧ d = e := by
  have hi : i < (documents.map Document.id).length := by
    rw [List.length_map]
    exact (List.getElem?_eq_some_iff.mp hd).1
  have hij : i = j := by
    apply (List.getElem?_inj hi h).mp
    rw [List.getElem?_map, List.getElem?_map, hd, he]
    exact congrArg some hid
  subst hij
  exact ⟨rfl, Option.some.inj (hd.symm.trans he)⟩

/-- What is said about the watching of a document. -/
def Document.watching (d : Document) : DocumentId × Bool × List Watch :=
  (d.id, d.isDestroyed, d.watches)

theorem Document.watching_eq_iff {d e : Document} : d.watching = e.watching ↔
    d.id = e.id ∧ d.isDestroyed = e.isDestroyed ∧ d.watches = e.watches := by
  simp [watching]

namespace Configuration

/-- Documents are opened under identities that no document had before, and with no watches. -/
def opensNew (c : Configuration) : Move → Bool
  | .openDocument d => d.watches.isEmpty && ! c.documents.any fun e => e.id = d.id
  | _ => true

/-- The cycles that have not come to an end. -/
def cycles (c : Configuration) : List Cycle := c.pending ++ c.stack.filterMap Frame.cycle?

/-- The updates that have still to be published or recorded. -/
def updates (c : Configuration) : List Update := c.stack.filterMap Frame.update?

/-- Some document of the identity has been destroyed. -/
def IsGone (c : Configuration) (id : DocumentId) : Prop :=
  ∃ (i : DocumentIndex) (d : Document), c.documents[i]? = some d ∧ d.id = id ∧
    d.isDestroyed = true

/-- The document of a cycle is there, and watched unless it is gone. -/
structure Backed (c : Configuration) (cycle : Cycle) : Prop where
  document : ∃ d, c.documents[cycle.document]? = some d ∧ d.id = cycle.id
  state : c.provider.tracker.isWatched cycle.id = true ∨ c.IsGone cycle.id ∨
    c.provider.isDisposed = true

/-- Where the watch of a flagged document is. -/
inductive Holds (c : Configuration) (i : DocumentIndex) (d : Document) (key : Nat) : Prop
  /-- On the document, and kept by the provider. -/
  | kept (hentry : c.provider.watches d.id = some ⟨i, key⟩) (hwatches : d.watches = [⟨key, d.id⟩])
    (hlive : d.isDestroyed = false)
  /-- On the document, but not kept yet. -/
  | fresh (hhead : c.stack.head? = some (.attaching i d.id key))
    (hentry : c.provider.watches d.id = none) (hwatches : d.watches = [⟨key, d.id⟩])
    (hlive : d.isDestroyed = false)
  /-- Taken from the document, which is being destroyed, to be called next. -/
  | taken (hhead : c.stack.head? = some (.destroying [⟨key, d.id⟩]))
    (hentry : c.provider.watches d.id = some ⟨i, key⟩) (hdestroyed : d.isDestroyed = true)

/-- How the flag of an identity, the watch kept in its name and the watches on its document
agree. -/
structure AttachedAt (c : Configuration) (id : DocumentId) : Prop where
  flagged : c.provider.tracker.isWatched id = true →
    ∃ (i : DocumentIndex) (d : Document) (key : Nat), c.documents[i]? = some d ∧ d.id = id ∧
      c.Holds i d key
  watched : ∀ (i : DocumentIndex) (d : Document), c.documents[i]? = some d → d.id = id →
    d.watches ≠ [] → d.isDestroyed = false ∧ c.provider.tracker.isWatched id = true
  entry : ∀ ref, c.provider.watches id = some ref →
    (c.provider.tracker.isWatched id = true ∨ .forgetting id ∈ c.stack) ∧
      ∃ d, c.documents[ref.document]? = some d ∧ d.id = id
  forgetting : .forgetting id ∈ c.stack → c.provider.tracker.isWatched id = false ∧ c.IsGone id
  attaching : ∀ i key, (.attaching i id key ∈ c.stack.tail → c.IsGone id) ∧
    (c.stack.head? = some (.attaching i id key) → c.provider.watches id = none ∨ c.IsGone id)
  destroying : ∀ w ws, w.id = id → .destroying (w :: ws) ∉ c.stack.tail ∧
    (c.stack.head? = some (.destroying (w :: ws)) → ws = [] ∧ c.isAlive = true ∧ c.IsGone id)

/-- They agree for every identity. -/
def Attached (c : Configuration) : Prop := ∀ id, c.AttachedAt id

/-- Nothing keeps the provider's state alive, and no watch is left. -/
structure Reaped (c : Configuration) : Prop where
  dead : c.isAlive = false
  entry : ∀ id, c.provider.watches id = none
  watches : ∀ (i : DocumentIndex) (d : Document), c.documents[i]? = some d → d.watches = []
  work : ∀ f ∈ c.stack, f.watchId? = none

/-- What holds at every moment of a run. -/
structure Coherent (c : Configuration) : Prop where
  distinct : (c.documents.map Document.id).Nodup
  recorded : ∀ id ps, c.provider.tracker.recorded id = some ps →
    c.provider.tracker.isWatched id = true ∧ ps ≠ [] ∧ Path.Distinct ps
  disposed : c.provider.isDisposed = true → ∀ id, c.provider.tracker.isWatched id = false
  updates : ∀ u ∈ c.updates, Path.Distinct u.paths
  cycles : ∀ cycle ∈ c.cycles, c.Backed cycle
  held : c.Reaped ∨ c.Attached

variable {rule : Configuration → Move → Bool} {c c' : Configuration}

theorem isGone_of_documents {id : DocumentId} (h : c.documents = c'.documents)
    (hid : c.IsGone id) : c'.IsGone id := by
  rw [IsGone, ← h]
  exact hid

theorem watchId?_of_rest (hc : c.advance = none) (f : Frame) (hf : c.stack.head? = some f) :
    f.watchId? = none := by
  have hcallout := (advance_eq_none_iff c).mp hc f hf
  cases f <;> simp_all [Frame.isCallout, Frame.watchId?]

theorem watchId?_ne_of_rest (hc : c.advance = none) (id : DocumentId) (f : Frame)
    (hf : c.stack.head? = some f) : f.watchId? ≠ some id := by
  rw [watchId?_of_rest hc f hf]
  exact (Option.some_ne_none id).symm

/-- What is alive after a change was alive before. -/
theorem isAlive_of_change {shown : List Event} (h : Change rule c shown c')
    (halive : c'.isAlive = true) : c.isAlive = true := by
  cases h with
  | register channel hc hm hhandle => simp [isAlive, hhandle]
  | release => exact halive
  | skip => exact halive
  | start hc hhandle => simp [isAlive, hhandle]
  | watch hc hhandle => simp [isAlive, hhandle]
  | watchDestroyed hc hhandle => simp [isAlive, hhandle]
  | poll hc hm h =>
    have hpending : c.pending ≠ [] := by
      rintro hnil
      rw [hnil] at h
      cases h
    simp [isAlive, hpending]
  | abandon place =>
    have hpending : c.pending.eraseIdx place ≠ [] → c.pending ≠ [] := by
      rintro hne hnil
      exact hne (by rw [hnil]; rfl)
    simp only [isAlive, Bool.or_eq_true, Bool.not_eq_true', List.isEmpty_eq_false_iff] at halive ⊢
    rcases halive with (hhandle | hne) | hstack
    · exact .inl (.inl hhandle)
    · exact .inl (.inr (hpending hne))
    · exact .inr hstack
  | openDocument => exact halive
  | destroy => simpa [isAlive, push, updateDocument, Frame.keepsAlive] using halive
  | edit => exact halive
  | focus => exact halive
  | dispose hc hm hhandle => simp [isAlive, hhandle]
  | dropHandle =>
    simp only [isAlive, Bool.false_or, Bool.or_eq_true] at halive ⊢
    rcases halive with hpending | hstack
    · exact .inl (.inr hpending)
    · exact .inr hstack
  | returns hm h => simpa [isAlive, setStack, h, Frame.keepsAlive] using halive
  | busy hm h => simp [isAlive, h, Frame.keepsAlive]
  | discard hm h => simp [isAlive, h, Frame.keepsAlive]
  | resume hm h => simp [isAlive, h, Frame.keepsAlive]
  | hand h => simpa [isAlive, setStack, h, Frame.keepsAlive] using halive
  | handed h => simpa [isAlive, setStack, h, Frame.keepsAlive] using halive
  | update h => simp [isAlive, h, Frame.keepsAlive]
  | record h => simp [isAlive, h, Frame.keepsAlive]
  | leave h => simp [isAlive, h, Frame.keepsAlive]
  | retract h => simp [isAlive, h, Frame.keepsAlive]
  | finish h => simp [isAlive, h, Frame.keepsAlive]
  | letGo h => simp [isAlive, h, Frame.keepsAlive]
  | called h => simpa [isAlive, setStack, h, Frame.keepsAlive] using halive
  | call h hbefore => simpa [isAlive, setStack, h, Frame.keepsAlive] using hbefore
  | miss h => simpa [isAlive, setStack, h, Frame.keepsAlive] using halive
  | attach h => simp [isAlive, h, Frame.keepsAlive]
  | detach h => simp [isAlive, h, Frame.keepsAlive]
  | reap => exact halive

theorem mem_tail_of_mem {stack : List Frame} {f : Frame} (hmem : f ∈ stack)
    (hhead : stack.head? ≠ some f) : f ∈ stack.tail := by
  cases stack with
  | nil => exact absurd hmem List.not_mem_nil
  | cons g stack =>
    rcases List.mem_cons.mp hmem with rfl | hmem
    · exact absurd rfl hhead
    · exact hmem

theorem mem_tail_of_rest (hc : c.advance = none) {f : Frame} (hf : f.watchId? ≠ none)
    (hmem : f ∈ c.stack) : f ∈ c.stack.tail :=
  mem_tail_of_mem hmem fun hhead => hf (watchId?_of_rest hc f hhead)

/-- Between two pieces of work no watch is about to be called. -/
theorem AttachedAt.not_destroying {id : DocumentId} (h : c.AttachedAt id) (hc : c.advance = none)
    {w : Watch} {ws : List Watch} (hid : w.id = id) : .destroying (w :: ws) ∉ c.stack := by
  intro hmem
  exact (h.destroying w ws hid).1 (mem_tail_of_rest hc (Option.some_ne_none w.id) hmem)

/-- Between two pieces of work no watch changes hands in the name of a document that is there. -/
theorem AttachedAt.notMem_of_rest {id : DocumentId} (h : c.AttachedAt id) (hc : c.advance = none)
    (hgone : ¬ c.IsGone id) {f : Frame} (hf : f.watchId? = some id) : f ∉ c.stack := by
  intro hmem
  cases f with
  | forgetting x =>
    obtain rfl := Option.some.inj hf
    exact hgone (h.forgetting hmem).2
  | attaching j x key =>
    obtain rfl := Option.some.inj hf
    exact hgone ((h.attaching j key).1 (mem_tail_of_rest hc (Option.some_ne_none x) hmem))
  | destroying watches =>
    cases watches with
    | nil => cases hf
    | cons w ws => exact h.not_destroying hc (Option.some.inj hf) hmem
  | _ => cases hf

/-- A change that moves no watch in the name of an identity. -/
structure QuietAt (id : DocumentId) (c c' : Configuration) : Prop where
  head : ∀ f, c.stack.head? = some f → f.watchId? ≠ some id
  flag : c'.provider.tracker.isWatched id = c.provider.tracker.isWatched id
  entry : c'.provider.watches id = c.provider.watches id
  work : ∀ f : Frame, f.watchId? = some id → (f ∈ c'.stack ↔ f ∈ c.stack)
  documents : ∀ (i : DocumentIndex) (d : Document), d.id = id → c.documents[i]? = some d →
    ∃ d', c'.documents[i]? = some d' ∧ d'.watching = d.watching
  documents' : ∀ (i : DocumentIndex) (d' : Document), d'.id = id → c'.documents[i]? = some d' →
    ∃ d, c.documents[i]? = some d ∧ d.watching = d'.watching

namespace QuietAt

variable {id : DocumentId}

/-- Documents are left as they are. -/
theorem of_documents (hdocuments : c'.documents = c.documents)
    (hhead : ∀ f, c.stack.head? = some f → f.watchId? ≠ some id)
    (hflag : c'.provider.tracker.isWatched id = c.provider.tracker.isWatched id)
    (hentry : c'.provider.watches id = c.provider.watches id)
    (hwork : ∀ f : Frame, f.watchId? = some id → (f ∈ c'.stack ↔ f ∈ c.stack)) :
    QuietAt id c c' where
  head := hhead
  flag := hflag
  entry := hentry
  work := hwork
  documents := by
    rw [hdocuments]
    exact fun _ d _ hd => ⟨d, hd, rfl⟩
  documents' := by
    rw [hdocuments]
    exact fun _ d _ hd => ⟨d, hd, rfl⟩

theorem isGone (hq : QuietAt id c c') (h : c.IsGone id) : c'.IsGone id := by
  obtain ⟨i, d, hd, hid, hdestroyed⟩ := h
  obtain ⟨d', hd', hw⟩ := hq.documents i d hid hd
  rw [Document.watching_eq_iff] at hw
  exact ⟨i, d', hd', hw.1.trans hid, hw.2.1.trans hdestroyed⟩

theorem mem_tail (hq : QuietAt id c c') {f : Frame} (hf : f.watchId? = some id)
    (hmem : f ∈ c'.stack) : f ∈ c.stack.tail :=
  mem_tail_of_mem ((hq.work f hf).mp hmem) fun hhead => hq.head f hhead hf

/-- What agreed agrees still. -/
theorem attachedAt (hq : QuietAt id c c') (h : c.AttachedAt id) : c'.AttachedAt id where
  flagged := by
    intro hid
    rw [hq.flag] at hid
    obtain ⟨i, d, key, hd, rfl, hholds⟩ := h.flagged hid
    obtain ⟨d', hd', hw⟩ := hq.documents i d rfl hd
    rw [Document.watching_eq_iff] at hw
    refine ⟨i, d', key, hd', hw.1, ?_⟩
    cases hholds with
    | kept hentry hwatches hlive =>
      refine .kept ?_ ?_ (hw.2.1.trans hlive)
      · rw [hw.1, hq.entry, hentry]
      · rw [hw.2.2, hw.1, hwatches]
    | fresh hhead => exact absurd rfl (hq.head _ hhead)
    | taken hhead => exact absurd rfl (hq.head _ hhead)
  watched := by
    intro i d' hd' hid hne
    obtain ⟨d, hd, hw⟩ := hq.documents' i d' hid hd'
    rw [Document.watching_eq_iff] at hw
    rw [hq.flag, ← hw.2.1]
    exact h.watched i d hd (hw.1.trans hid) (hw.2.2 ▸ hne)
  entry := by
    intro ref href
    rw [hq.entry] at href
    obtain ⟨hflag, d, hd, hid⟩ := h.entry ref href
    obtain ⟨d', hd', hw⟩ := hq.documents ref.document d hid hd
    rw [Document.watching_eq_iff] at hw
    rw [hq.flag, hq.work _ rfl]
    exact ⟨hflag, d', hd', hw.1.trans hid⟩
  forgetting := by
    intro hmem
    rw [hq.work _ rfl] at hmem
    rw [hq.flag]
    exact (h.forgetting hmem).imp_right hq.isGone
  attaching := by
    intro i key
    have hgone (hmem : .attaching i id key ∈ c'.stack) : c'.IsGone id :=
      hq.isGone ((h.attaching i key).1 (hq.mem_tail rfl hmem))
    exact ⟨fun hmem => hgone (List.mem_of_mem_tail hmem),
      fun hhead => .inr (hgone (List.mem_of_head? hhead))⟩
  destroying := by
    intro w ws hid
    have hnot : .destroying (w :: ws) ∉ c'.stack := by
      intro hmem
      exact (h.destroying w ws hid).1 (hq.mem_tail (congrArg some hid) hmem)
    exact ⟨fun hmem => hnot (List.mem_of_mem_tail hmem),
      fun hhead => absurd (List.mem_of_head? hhead) hnot⟩

end QuietAt

/-- If no watch is moved in any name but one, things agree everywhere as soon as they agree there.
-/
theorem Attached.of_quietAt (h : c.Attached) (id : DocumentId)
    (hother : ∀ other, other ≠ id → QuietAt other c c') (hself : c'.AttachedAt id) :
    c'.Attached := by
  intro other
  by_cases heq : other = id
  · rw [heq]
    exact hself
  · exact (hother other heq).attachedAt (h other)

/-- A change that moves no watch. -/
structure Quiet (c c' : Configuration) : Prop where
  head : ∀ f, c.stack.head? = some f → f.watchId? = none
  alive : c'.isAlive = true → c.isAlive = true
  flags : c'.provider.tracker.isWatched = c.provider.tracker.isWatched := by rfl
  entries : c'.provider.watches = c.provider.watches := by rfl
  disposed : c'.provider.isDisposed = c.provider.isDisposed := by rfl
  work : ∀ f : Frame, f.watchId? ≠ none → (f ∈ c'.stack ↔ f ∈ c.stack)
  documents : c'.documents.map Document.watching = c.documents.map Document.watching := by rfl

namespace Quiet

theorem getElem?_map (hq : Quiet c c') (i : DocumentIndex) :
    c'.documents[i]?.map Document.watching = c.documents[i]?.map Document.watching := by
  rw [← List.getElem?_map, hq.documents, List.getElem?_map]

theorem getElem? (hq : Quiet c c') {i : DocumentIndex} {d : Document}
    (hd : c.documents[i]? = some d) :
    ∃ d', c'.documents[i]? = some d' ∧ d'.watching = d.watching := by
  have hmap := hq.getElem?_map i
  rw [hd, Option.map_some] at hmap
  exact Option.map_eq_some_iff.mp hmap

theorem getElem?' (hq : Quiet c c') {i : DocumentIndex} {d' : Document}
    (hd' : c'.documents[i]? = some d') :
    ∃ d, c.documents[i]? = some d ∧ d.watching = d'.watching := by
  have hmap := (hq.getElem?_map i).symm
  rw [hd', Option.map_some] at hmap
  exact Option.map_eq_some_iff.mp hmap

theorem quietAt (hq : Quiet c c') (id : DocumentId) : QuietAt id c c' where
  head := by
    intro f hf
    rw [hq.head f hf]
    exact (Option.some_ne_none id).symm
  flag := by rw [hq.flags]
  entry := by rw [hq.entries]
  work := fun f hf => hq.work f (by rw [hf]; exact Option.some_ne_none id)
  documents := fun _ _ _ hd => hq.getElem? hd
  documents' := fun _ _ _ hd' => hq.getElem?' hd'

theorem backed (hq : Quiet c c') {cycle : Cycle} (h : c.Backed cycle) : c'.Backed cycle where
  document := by
    obtain ⟨d, hd, hid⟩ := h.document
    obtain ⟨d', hd', hw⟩ := hq.getElem? hd
    exact ⟨d', hd', (Document.watching_eq_iff.mp hw).1.trans hid⟩
  state := by
    rw [hq.flags, hq.disposed]
    exact h.state.imp_right fun hgone => hgone.imp_left (hq.quietAt cycle.id).isGone

theorem reaped (hq : Quiet c c') (h : c.Reaped) : c'.Reaped where
  dead := by
    cases halive : c'.isAlive with
    | false => rfl
    | true => cases h.dead.symm.trans (hq.alive halive)
  entry := by
    rw [hq.entries]
    exact h.entry
  watches := by
    intro i d' hd'
    obtain ⟨d, hd, hw⟩ := hq.getElem?' hd'
    rw [← (Document.watching_eq_iff.mp hw).2.2, h.watches i d hd]
  work := by
    intro f hf
    by_cases hid : f.watchId? = none
    · exact hid
    · exact h.work f ((hq.work f hid).mp hf)

end Quiet

/-- A change that moves no watch, and records, works on and hands out only what it may. -/
theorem Coherent.quiet (h : c.Coherent) (hq : Quiet c c')
    (hrecorded : ∀ id ps, c'.provider.tracker.recorded id = some ps →
      c.provider.tracker.isWatched id = true ∧ ps ≠ [] ∧ Path.Distinct ps)
    (hupdates : ∀ u ∈ c'.updates, Path.Distinct u.paths)
    (hcycles : ∀ cycle ∈ c'.cycles, c.Backed cycle) : c'.Coherent where
  distinct := by
    have hids : c'.documents.map Document.id = c.documents.map Document.id := by
      have hmap := congrArg (List.map Prod.fst) hq.documents
      rw [List.map_map, List.map_map] at hmap
      exact hmap
    rw [hids]
    exact h.distinct
  recorded := by
    rw [hq.flags]
    exact hrecorded
  disposed := by
    rw [hq.flags, hq.disposed]
    exact h.disposed
  updates := hupdates
  cycles := fun cycle hcycle => hq.backed (hcycles cycle hcycle)
  held := h.held.imp hq.reaped fun ha id => (hq.quietAt id).attachedAt (ha id)

end Configuration

end DiagnosticRelay
