import DiagnosticRelay.Proofs.Consumer
import DiagnosticRelay.Proofs.Provider.Account
import DiagnosticRelay.Proofs.Provider.Reference.Hearing
import DiagnosticRelay.Proofs.Provider.Silence

/-!
# What a consumer shows of the documents

The two listeners that are there from the start make a consumer. With passive listeners one notice
is delivered at a time (`OneTold`), so the consumer hears everything that is published, in the order
in which it is published (`Heeding`), and the notices for each document are balanced. What it shows
follows: of a destroyed document nothing, and of a live one the messages of its last update, with
the exception of the paths that an invalidation for another document has listed since. Those stay
among the tracked paths of the document although nothing is shown of it there.
-/

namespace DiagnosticRelay

/-- What is published, with the identities it is published for. -/
def announced (es : List Event) : List (DocumentId × Notice) :=
  es.filterMap fun
    | .published source notice => some (source.id, notice)
    | _ => none

@[simp] theorem announced_nil : announced [] = [] := rfl

@[simp] theorem announced_append (es es' : List Event) :
    announced (es ++ es') = announced es ++ announced es' := by
  simp [announced]

theorem noticesFor_announced (id : DocumentId) (es : List Event) :
    noticesFor id (announced es) = noticesOf id es := by
  induction es with
  | nil => rfl
  | cons e es ih =>
    rw [← List.singleton_append, announced_append, noticesFor_append, noticesOf_append, ih]
    congr 1
    cases e with
    | published source notice => rw [noticesOf_published, ← noticesFor_singleton]; rfl
    | _ => rfl

namespace Frame

/-- Whether listeners are told of a notice in the frame. -/
def isTelling : Frame → Bool
  | .calling .. | .delivering .. => true
  | _ => false

/-- What the frame has still to bring to the two listeners. -/
def undelivered : Frame → List Notice
  | .delivering notice waiting => (waiting.filter isAttending).map fun _ => notice
  | _ => []

end Frame

/-- Nobody is told of anything. -/
def Hushed (stack : List Frame) : Prop := ∀ f ∈ stack, f.isTelling = false

/-- At most one notice is being delivered, on top of all other work. -/
inductive OneTold : List Frame → Prop
  | hushed {stack : List Frame} (h : Hushed stack) : OneTold stack
  | delivering {notice : Notice} {waiting : List ListenerId} {stack : List Frame}
    (h : Hushed stack) : OneTold (.delivering notice waiting :: stack)
  | calling {listener : ListenerId} {notice told : Notice} {waiting : List ListenerId}
    {stack : List Frame} (h : Hushed stack) :
    OneTold (.calling listener notice :: .delivering told waiting :: stack)

theorem OneTold.hushed_of_head {f : Frame} {stack : List Frame} (h : OneTold (f :: stack))
    (hf : f.isTelling = false) : Hushed (f :: stack) := by
  cases h with
  | hushed h => exact h
  | delivering => cases hf
  | calling => cases hf

theorem OneTold.hushed_of_delivering {notice : Notice} {waiting : List ListenerId}
    {stack : List Frame} (h : OneTold (.delivering notice waiting :: stack)) : Hushed stack := by
  cases h with
  | hushed h => cases h _ List.mem_cons_self
  | delivering h => exact h

theorem OneTold.of_calling {listener : ListenerId} {notice : Notice} {stack : List Frame}
    (h : OneTold (.calling listener notice :: stack)) : OneTold stack := by
  cases h with
  | hushed h => cases h _ List.mem_cons_self
  | calling h => exact .delivering h

namespace Configuration

/-- What deliveries in progress have still to bring to the two listeners. -/
def undelivered (c : Configuration) : List Notice := c.stack.flatMap Frame.undelivered

/-- The two listeners have heard, or are about to hear, all that has been published. -/
structure Heeding (c : Configuration) (es : List Event) : Prop where
  attending : Attending c.provider.listeners
  one : OneTold c.stack
  heard : heard es ++ c.undelivered = (announced es).map Prod.snd

variable {c c' : Configuration} {es shown : List Event}

theorem undelivered_of_stack {fs : List Frame} (h : c.stack = fs) :
    c.undelivered = fs.flatMap Frame.undelivered := by
  rw [undelivered, h]

theorem undelivered_of_hushed {stack : List Frame} (h : Hushed stack) :
    stack.flatMap Frame.undelivered = [] := by
  rw [List.flatMap_eq_nil_iff]
  intro f hf
  have htelling := h f hf
  cases f with
  | delivering => cases htelling
  | _ => rfl

namespace Heeding

/-- Where nobody is called, nobody is told of anything. -/
theorem hushed_of_rest (h : c.Heeding es) (hc : c.advance = none)
    (hcalling : ∀ listener notice, c.stack.head? ≠ some (.calling listener notice)) :
    Hushed c.stack := by
  have hone := h.one
  cases hs : c.stack with
  | nil => exact List.forall_mem_nil _
  | cons f stack =>
    rw [hs] at hone hcalling
    have hcallout := (advance_eq_none_iff c).mp hc f (by rw [hs]; rfl)
    cases f with
    | calling listener notice => exact absurd rfl (hcalling listener notice)
    | asking => exact hone.hushed_of_head rfl
    | _ => cases hcallout

theorem hushed_of_passive (h : c.Heeding es) (hc : c.advance = none) {m : Move}
    (hm : c.passive m = true) (hreturns : m ≠ .returns) : Hushed c.stack :=
  h.hushed_of_rest hc (head?_of_passive hm hreturns)

theorem hushed_of_stack (h : c.Heeding es) {f : Frame} {stack : List Frame}
    (hs : c.stack = f :: stack) (hf : f.isTelling = false) : Hushed (f :: stack) :=
  (hs ▸ h.one).hushed_of_head hf

/-- Nobody is told of anything, and other listeners may come and go. -/
theorem still (h : c.Heeding es) (hlisteners : Attending c'.provider.listeners)
    (hs : c'.stack = c.stack) (hheard : DiagnosticRelay.heard shown = [])
    (hannounced : announced shown = []) : c'.Heeding (es ++ shown) where
  attending := hlisteners
  one := hs ▸ h.one
  heard := by
    rw [heard_append, announced_append, hheard, hannounced, List.append_nil, List.append_nil,
      undelivered, hs]
    exact h.heard

/-- Work is replaced by other work, of which nobody is told. -/
theorem worked (h : c.Heeding es) {stack stack' : List Frame} (hs : c.stack = stack)
    (hs' : c'.stack = stack') (hhushed : Hushed stack) (hhushed' : Hushed stack')
    (hlisteners : c'.provider.listeners = c.provider.listeners)
    (hheard : DiagnosticRelay.heard shown = []) (hannounced : announced shown = []) :
    c'.Heeding (es ++ shown) where
  attending := hlisteners ▸ h.attending
  one := hs' ▸ .hushed hhushed'
  heard := by
    have hbefore := h.heard
    rw [undelivered_of_stack hs, undelivered_of_hushed hhushed] at hbefore
    rw [heard_append, announced_append, hheard, hannounced, undelivered_of_stack hs',
      undelivered_of_hushed hhushed']
    simpa using hbefore

/-- A notice is published while nobody is told of another one. -/
theorem publish (h : c.Heeding es) {stack stack' : List Frame} {id : DocumentId} {notice : Notice}
    (hs : c.stack = stack) (hs' : c'.stack = .delivering notice (c.recipients notice) :: stack')
    (hhushed : Hushed stack) (hhushed' : Hushed stack')
    (hlisteners : c'.provider.listeners = c.provider.listeners)
    (hheard : DiagnosticRelay.heard shown = []) (hannounced : announced shown = [(id, notice)]) :
    c'.Heeding (es ++ shown) where
  attending := hlisteners ▸ h.attending
  one := hs' ▸ .delivering hhushed'
  heard := by
    have hbefore := h.heard
    rw [undelivered_of_stack hs, undelivered_of_hushed hhushed, List.append_nil] at hbefore
    rw [heard_append, announced_append, hheard, hannounced, undelivered_of_stack hs',
      List.flatMap_cons, undelivered_of_hushed hhushed', List.append_nil, List.append_nil, hbefore]
    simp [Frame.undelivered, h.attending.recipients]

/-- An invalidation may be published while nobody is told of another one. -/
theorem publishSome (h : c.Heeding es) {b : Configuration} {source : Source}
    {o : Option Invalidation} {stack stack' : List Frame} (hs : c.stack = stack)
    (hs' : b.stack = stack') (hhushed : Hushed stack) (hhushed' : Hushed stack')
    (hlisteners : b.provider.listeners = c.provider.listeners) :
    (b.publishSome source o).1.Heeding (es ++ (b.publishSome source o).2) := by
  cases o with
  | none => exact h.worked hs hs' hhushed hhushed' hlisteners rfl rfl
  | some i =>
    have hrecipients : b.recipients (.invalidation i) = c.recipients (.invalidation i) := by
      rw [recipients, recipients, hlisteners]
    have hstack : (b.publishSome source (some i)).1.stack =
        .delivering (.invalidation i) (c.recipients (.invalidation i)) :: stack' := by
      rw [← hrecipients, ← hs']
      rfl
    exact h.publish hs hstack hhushed hhushed' hlisteners rfl rfl

/-- The listener that was called has been told. -/
theorem returned (h : c.Heeding es) {listener : ListenerId} {notice : Notice} {stack : List Frame}
    (hs : c.stack = .calling listener notice :: stack) : (c.setStack stack).Heeding (es ++ []) := by
  have hheard := h.heard
  rw [undelivered_of_stack hs] at hheard
  refine ⟨h.attending, (hs ▸ h.one).of_calling, ?_⟩
  rw [List.append_nil, undelivered_of_stack (stack_setStack c stack)]
  exact hheard

/-- Every change but disposing lets the two listeners hear all that is published, as long as moves
are made only while nobody is told of anything. -/
theorem change {rule : Configuration → Move → Bool} (h : c.Heeding es)
    (hchange : Change rule c shown c')
    (hrelease : ∀ id, rule c (.release id) = true → isAttending id = false)
    (hrest : c.advance = none → Hushed c.stack) (hopen : c'.provider.isDisposed = false) :
    c'.Heeding (es ++ shown) := by
  have hpush {stack : List Frame} (hhushed : Hushed stack) {f : Frame}
      (hf : f.isTelling = false) : Hushed (f :: stack) := List.forall_mem_cons.mpr ⟨hf, hhushed⟩
  have hpop {f : Frame} {stack : List Frame} (hs : c.stack = f :: stack)
      (hf : f.isTelling = false) : Hushed stack :=
    (List.forall_mem_cons.mp (h.hushed_of_stack hs hf)).2
  cases hchange with
  | register channel => exact h.still (h.attending.register channel) rfl rfl rfl
  | release id _ hm => exact h.still (h.attending.remove (hrelease id hm)) rfl rfl rfl
  | skip => exact h.still h.attending rfl rfl rfl
  | start => exact h.still h.attending rfl rfl rfl
  | watch hc =>
    have hhushed := hrest hc
    exact h.worked rfl rfl hhushed (hpush hhushed rfl) rfl rfl rfl
  | watchDestroyed hc =>
    have hhushed := hrest hc
    rw [forgetDocument_eq]
    exact h.publishSome rfl rfl hhushed (hpush (hpush hhushed rfl) rfl) rfl
  | poll hc =>
    have hhushed := hrest hc
    exact h.worked rfl rfl hhushed (hpush hhushed rfl) rfl rfl rfl
  | abandon => exact h.still h.attending rfl rfl rfl
  | openDocument => exact h.still h.attending rfl rfl rfl
  | destroy hc =>
    have hhushed := hrest hc.rest
    exact h.worked rfl rfl hhushed (hpush hhushed rfl) rfl rfl rfl
  | edit => exact h.still h.attending rfl rfl rfl
  | focus => exact h.still h.attending rfl rfl rfl
  | dispose => cases hopen
  | dropHandle => exact h.still h.attending rfl rfl rfl
  | returns _ hs => exact h.returned hs
  | busy _ hs =>
    exact h.worked hs rfl (h.hushed_of_stack hs rfl) (hpop hs rfl) rfl rfl rfl
  | discard _ hs =>
    exact h.worked hs rfl (h.hushed_of_stack hs rfl) (hpop hs rfl) rfl rfl rfl
  | resume _ hs =>
    exact h.publishSome hs rfl (h.hushed_of_stack hs rfl) (hpush (hpop hs rfl) rfl) rfl
  | @hand notice id waiting stack hs =>
    have hhushed := (hs ▸ h.one).hushed_of_delivering
    have hheard := h.heard
    rw [undelivered_of_stack hs] at hheard
    refine ⟨h.attending, .calling hhushed, ?_⟩
    have hcalled : DiagnosticRelay.heard [.called id notice] ++
        (Frame.delivering notice waiting).undelivered =
          (Frame.delivering notice (id :: waiting)).undelivered := by
      cases hid : isAttending id with
      | true => simp [DiagnosticRelay.heard, Frame.undelivered, hid]
      | false => simp [DiagnosticRelay.heard, Frame.undelivered, hid]
    have hsilent : announced [.called id notice] = [] := rfl
    rw [List.flatMap_cons, ← hcalled, List.append_assoc] at hheard
    rw [heard_append, announced_append, hsilent, List.append_nil,
      undelivered_of_stack (stack_setStack _ _), ← hheard, List.append_assoc]
    rfl
  | @handed notice stack hs =>
    have hheard := h.heard
    rw [undelivered_of_stack hs] at hheard
    refine ⟨h.attending, .hushed (hs ▸ h.one).hushed_of_delivering, ?_⟩
    rw [List.append_nil, undelivered_of_stack (stack_setStack c stack)]
    exact hheard
  | update hs =>
    exact h.publish hs rfl (h.hushed_of_stack hs rfl) (hpush (hpop hs rfl) rfl) rfl rfl rfl
  | record hs =>
    exact h.worked hs rfl (h.hushed_of_stack hs rfl) (hpush (hpop hs rfl) rfl) rfl rfl rfl
  | leave hs =>
    exact h.worked hs rfl (h.hushed_of_stack hs rfl) (hpush (hpop hs rfl) rfl) rfl rfl rfl
  | retract hs =>
    exact h.publish hs rfl (h.hushed_of_stack hs rfl) (hpush (hpop hs rfl) rfl) rfl rfl rfl
  | finish hs =>
    exact h.worked hs rfl (h.hushed_of_stack hs rfl) (hpop hs rfl) rfl rfl rfl
  | letGo hs =>
    exact h.worked hs (stack_releaseWatch _ _) (h.hushed_of_stack hs rfl) (hpop hs rfl)
      (listeners_releaseWatch _ _) rfl rfl
  | called hs =>
    exact h.worked hs rfl (h.hushed_of_stack hs rfl) (hpop hs rfl) rfl rfl rfl
  | call hs =>
    rw [forgetDocument_eq]
    exact h.publishSome hs rfl (h.hushed_of_stack hs rfl) (hpush (hpush (hpop hs rfl) rfl) rfl) rfl
  | miss hs =>
    exact h.worked hs rfl (h.hushed_of_stack hs rfl) (hpush (hpop hs rfl) rfl) rfl rfl rfl
  | @attach i x key stack hs hw =>
    obtain ⟨pending, n, hattach, hstarted⟩ := attach_of_isWatched (c.setStack stack) i x key hw
    refine h.worked hs (stack_attach _ _ _ _) (h.hushed_of_stack hs rfl) (hpop hs rfl) ?_ ?_ ?_
    · rw [hattach]
      exact listeners_releaseWatch _ _
    · rw [DiagnosticRelay.heard, List.filterMap_eq_nil_iff]
      intro e he
      obtain ⟨_, _, _, rfl⟩ := hstarted e he
      rfl
    · rw [announced, List.filterMap_eq_nil_iff]
      intro e he
      obtain ⟨_, _, _, rfl⟩ := hstarted e he
      rfl
  | detach hs =>
    exact h.worked hs rfl (h.hushed_of_stack hs rfl) (hpop hs rfl) rfl rfl rfl
  | reap => exact h.still h.attending rfl rfl rfl

theorem chain (h : c.Heeding es) (hchain : Chain passive c shown c') (hhushed : Hushed c.stack)
    (hopen : c'.provider.isDisposed = false) : c'.Heeding (es ++ shown) := by
  cases hchain with
  | none => exact h.still h.attending rfl rfl rfl
  | one hchange => exact h.change hchange (fun _ => isAttending_of_passive) (fun _ => hhushed) hopen
  | @two shown more l _ _ hregister hchange =>
    have hbetween := h.change hregister (fun _ => isAttending_of_passive) (fun _ => hhushed)
      (isDisposed_of_change hchange hopen)
    rw [← List.append_assoc]
    exact hbetween.change hchange (fun _ => isAttending_of_passive) (fun _ => hhushed) hopen

theorem pass (h : c.Heeding es) (hpass : Pass passive c shown c')
    (hopen : c'.provider.isDisposed = false) : c'.Heeding (es ++ shown) := by
  cases hpass with
  | @move m hc hm =>
    by_cases hreturns : m = .returns
    · subst hreturns
      rw [begin]
      split
      · next hs => exact h.returned hs
      · exact h.still h.attending rfl rfl rfl
    · -- any other move is made where nobody is told of anything
      exact h.chain (chain_begin hc hm) (h.hushed_of_passive hc.rest hm hreturns) hopen
  | work hadvance =>
    have hrest (hnone : c.advance = none) : Hushed c.stack := by cases hadvance.symm.trans hnone
    exact h.change (change_advance hadvance) (fun _ => isAttending_of_passive) hrest hopen
  | reap =>
    unfold reap
    split
    · exact h.still h.attending rfl rfl rfl
    · exact h.still h.attending rfl rfl rfl

end Heeding

theorem heeding_run {settings : Settings} {documents : List Document} {ms : List Move}
    (hms : admits passive (attended settings documents) ms = true)
    (hopen : ((attended settings documents).run ms).1.provider.isDisposed = false) :
    ((attended settings documents).run ms).1.Heeding ((attended settings documents).run ms).2 := by
  refine run_invariant (P := fun c es => c.provider.isDisposed = false → c.Heeding es)
    (ready_run (ready_new settings documents) _) hms ?_ ?_ hopen
  · intro _
    exact ⟨⟨rfl, rfl, Nat.le_refl 2⟩, .hushed (List.forall_mem_nil _), rfl⟩
  · intro c es shown c' h hpass hopen
    exact (h (isDisposed_of_pass hpass hopen)).pass hpass hopen

/-- With passive listeners the cycles of a document take turns. -/
theorem Follows.admits_takesTurns {s : Reference} {told : List Notice} {ms : List Move}
    (h : c.Follows es s told) (hc : c.Ready) (hms : admits passive c ms = true)
    (hopen : (c.run ms).1.provider.isDisposed = false) : admits takesTurns c ms = true := by
  induction ms generalizing c es s told with
  | nil => rfl
  | cons m ms ih =>
    rw [admits_cons] at hms
    rw [run_cons] at hopen
    refine admits_cons.mpr ⟨?_, ih (h.step hc hms.1) (ready_step c m) hms.2 hopen⟩
    refine Bool.and_eq_true_iff.mpr ⟨opensNew_of_passive hms.1, ?_⟩
    split
    · have hdisposed := (step_dispose_calls hc h.handle).1
      cases (isDisposed_of_run (ready_step c _) hopen).symm.trans hdisposed
    · next r cycle place stack hs =>
      -- below a compiler being asked there are only compilers being asked
      have hlayered := h.layered
      rw [hs] at hlayered
      simp only [Bool.not_eq_true', List.any_eq_false]
      intro f hf
      have hasking := hlayered.1 (.inl rfl) f hf
      cases f with
      | asking => exact Bool.false_ne_true
      | _ => cases hasking
    · rfl

theorem solvent_run_attended {settings : Settings} {documents : List Document} {ms : List Move}
    (h : Unwatched documents)
    (hms : admits takesTurns (attended settings documents) ms = true) :
    ((attended settings documents).run ms).1.Solvent ((attended settings documents).run ms).2 := by
  refine run_keeps (P := Solvent) (ready_run (ready_new settings documents) _) hms ?_ Solvent.change
  exact ⟨(follows_attended settings h).coherent, rfl,
    fun _ => ⟨[], [], .nil, .resting rfl rfl fun _ => rfl⟩⟩

/-- What is displayed of a document, and how that compares with its tracked paths. -/
structure Displayed (c : Configuration) (ns : List (DocumentId × Notice)) (d : Document) :
    Prop where
  /-- Of a live document its last update, but for the paths that have been cleared since; and that
  was done in the name of other documents. -/
  live : d.isDestroyed = false → ∀ before u after, ns = before ++ (d.id, .update u) :: after →
    (∀ v, (d.id, .update v) ∉ after) →
      c.provider.trackedPaths d.id = u.paths ∧ (∀ n ∈ after, n.1 ≠ d.id) ∧
      ∀ p, displayOf d.id p ns =
        if after.any (·.2.clears p) then [] else (u.messagesFor? p).getD []
  unpublished : d.isDestroyed = false → (∀ u, (d.id, .update u) ∉ ns) →
    c.provider.trackedPaths d.id = [] ∧ ∀ p, displayOf d.id p ns = []
  destroyed : d.isDestroyed = true →
    c.provider.trackedPaths d.id = [] ∧ ∀ p, displayOf d.id p ns = []

theorem Solvent.displayed (h : c.Solvent es) (hc : c.advance = none)
    (halive : c.isAlive = true) (hasking : ∀ f ∈ c.stack, f.isAsking = true) {d : Document}
    (hd : d ∈ c.documents) : c.Displayed (announced es) d := by
  obtain ⟨last, due, hbalanced, haccount⟩ := h.account d.id
  obtain ⟨i, hi⟩ := List.getElem?_of_mem hd
  have hframes : c.publishing d.id = [] := by
    rw [publishing, List.filter_eq_nil_iff]
    intro f hf
    have hf := hasking f hf
    cases f with
    | asking => exact Bool.false_ne_true
    | _ => cases hf
  have hdue := haccount.of_publishing_eq_nil hframes
  have hlive (hlive : d.isDestroyed = false) : due = last := by
    cases haccount with
    | resting _ _ hsame => exact hsame (h.coherent.not_isGone hi hlive)
    | announcing hframes' => cases hframes.symm.trans hframes'
    | keeping hframes' => cases hframes.symm.trans hframes'
  rw [← noticesFor_announced] at hbalanced
  have hcleared (hnone : due = []) (p : Path) : displayOf d.id p (announced es) = [] := by
    rw [hnone] at hbalanced
    exact displayOf_eq_nil hbalanced (List.forall_mem_nil _)
  refine ⟨?_, ?_, ?_⟩
  · intro hd before u after hns hlast
    have hlast (v : Update) : .update v ∉ noticesFor d.id after := by
      rw [mem_noticesFor]
      exact hlast v
    rw [hns, List.append_cons, noticesFor_append] at hbalanced
    have hupdate : noticesFor d.id (before ++ [(d.id, .update u)]) =
        noticesFor d.id before ++ [.update u] := by
      rw [noticesFor_append, noticesFor_singleton, if_pos rfl]
    have hafter : noticesFor d.id after = [] := by
      rw [hupdate, ← List.append_cons, hlive hd] at hbalanced
      exact hbalanced.eq_nil_of_due hlast
    rw [hafter, List.append_nil] at hbalanced
    have hothers := noticesFor_eq_nil_iff.mp hafter
    refine ⟨?_, hothers, ?_⟩
    · rw [← hdue]
      exact (hupdate ▸ hbalanced).due_of_update
    · intro p
      rw [hns]
      exact displayOf_eq hbalanced hothers p
  · intro hd hnone
    have hnil := hbalanced.eq_nil_of_no_update fun u => mem_noticesFor.not.mpr (hnone u)
    have hlast := hbalanced.last_eq
    rw [hnil, lastPaths_nil, ← hlive hd] at hlast
    exact ⟨hdue.symm.trans hlast, hcleared hlast⟩
  · intro hdestroyed
    have hunflagged := h.coherent.isWatched_of_isDestroyed (h.coherent.attached halive) hc hi
      hdestroyed
    have hnone := trackedPaths_eq_nil (h.coherent.recorded_eq_none hunflagged)
    exact ⟨hnone, hcleared (hdue.trans hnone)⟩

/-- With passive listeners, whatever documents report in the same files: the two listeners that are
there from the start hear all that is published, and once nobody is being called, a consumer shows
nothing of a destroyed document, and of a live one the messages of its last update, except on paths
that an invalidation for another document has listed since. -/
theorem run_displayed {settings : Settings} {documents : List Document} {ms : List Move}
    (h : Unwatched documents) (hms : admits passive (attended settings documents) ms = true)
    (hopen : ((attended settings documents).run ms).1.provider.isDisposed = false)
    (hcalling : ∀ listener notice, .calling listener notice ∉
      ((attended settings documents).run ms).1.stack) :
    (∀ p, display p (heard ((attended settings documents).run ms).2) =
      (displayWithSource p (announced ((attended settings documents).run ms).2)).map Prod.snd) ∧
    ∀ d ∈ ((attended settings documents).run ms).1.documents,
      ((attended settings documents).run ms).1.Displayed
        (announced ((attended settings documents).run ms).2) d := by
  have hready : (attended settings documents).Ready := ready_run (ready_new settings documents) _
  have hrest := (ready_run hready ms).rest
  have hhead (listener : ListenerId) (notice : Notice) :
      ((attended settings documents).run ms).1.stack.head? ≠ some (.calling listener notice) :=
    fun hhead => hcalling listener notice (List.mem_of_head? hhead)
  have hfollows := (follows_attended settings h).run hready hms
  have hheeding := heeding_run hms hopen
  refine ⟨?_, ?_⟩
  · intro p
    have hheard := hheeding.heard
    rw [undelivered, undelivered_of_hushed (hheeding.hushed_of_rest hrest hhead),
      List.append_nil] at hheard
    rw [map_snd_displayWithSource, hheard]
  · intro d hd
    have hturns := (follows_attended settings h).admits_takesTurns hready hms hopen
    have halive : ((attended settings documents).run ms).1.isAlive = true := by
      simp [isAlive, hfollows.handle]
    exact (solvent_run_attended h hturns).displayed hrest halive
      (isAsking_of_rest hfollows.layered hrest hhead) hd

/-- Another saved document. -/
def includingDocument : Document :=
  ⟨⟨2⟩, some ⟨"/src/c.m"⟩, "c.m", "source.objc", [20], false, []⟩

/-- Two documents that include the same file. -/
def including : Configuration := attended .default [savedDocument, includingDocument]

/-- Both report a warning in the file, and the second one is destroyed. -/
def sharedFile : List Move :=
  [.run 0, .poll 0, answerIn "/src/b.h", .returns, .run 1, .poll 0, answerIn "/src/b.h", .returns,
    .destroy 1, .returns]

/-- The file is still among the tracked paths of the first document, and nothing is shown for it. -/
theorem cleared_for_all :
    admits passive including sharedFile = true ∧
    (including.run sharedFile).1.isIdle = true ∧
    (including.run sharedFile).1.provider.isDisposed = false ∧
    (including.run sharedFile).1.provider.trackedPaths ⟨1⟩ = [⟨"/src/b.h"⟩] ∧
    (noticesOf ⟨1⟩ (including.run sharedFile).2).map
      (fun n => (n.brings ⟨"/src/b.h"⟩).map Message.text) = [["unused"]] ∧
    display ⟨"/src/b.h"⟩ (heard (including.run sharedFile).2) = [] := by
  decide

theorem run_displayed_sharedFile :
    Unwatched [savedDocument, includingDocument] ∧
    admits passive including sharedFile = true ∧
    (including.run sharedFile).1.provider.isDisposed = false ∧
    (∀ p, display p (heard (including.run sharedFile).2) =
      (displayWithSource p (announced (including.run sharedFile).2)).map Prod.snd) ∧
    ∀ d ∈ (including.run sharedFile).1.documents,
      (including.run sharedFile).1.Displayed (announced (including.run sharedFile).2) d := by
  have hdocuments : Unwatched [savedDocument, includingDocument] := ⟨by decide, by decide⟩
  have hms : admits passive including sharedFile = true := by decide
  have hopen : (including.run sharedFile).1.provider.isDisposed = false := by decide
  have hidle : (including.run sharedFile).1.stack = [] := List.isEmpty_iff.mp (by decide)
  refine ⟨hdocuments, hms, hopen, run_displayed hdocuments hms hopen ?_⟩
  intro listener notice hmem
  have hmem : .calling listener notice ∈ (including.run sharedFile).1.stack := hmem
  rw [hidle] at hmem
  exact absurd hmem List.not_mem_nil

end Configuration

end DiagnosticRelay
