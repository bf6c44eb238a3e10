import DiagnosticRelay.Proofs.Provider.Starting
import Mathlib.Data.List.Perm.Basic

/-!
# From the start of a cycle to its end

A cycle that was started waits in the queue until it is polled. The first poll has its document
compiled, and as long as the compiler is busy the cycle goes back to its place; once there is an
answer the cycle is dealt with to its end, which it logs. The host may also drop a cycle that waits.

`Books` compares the three lists of cycles that a run leaves (those that have come to their ends,
those that were dropped and those in flight) with what was shown. Changes fall into three kinds
(`Turnover`), and polling and dropping make two more; each has a lemma of its own.
-/

namespace DiagnosticRelay

/-- How the compiler was asked for a cycle: to compile its document, or only whether it is done. -/
def asksOf (n : Nat) (es : List Event) : List Bool :=
  es.filterMap fun
    | .asked number _ isFirst => if number = n then some isFirst else none
    | _ => none

@[simp] theorem asksOf_nil (n : Nat) : asksOf n [] = [] := rfl

@[simp] theorem asksOf_append (n : Nat) (es es' : List Event) :
    asksOf n (es ++ es') = asksOf n es ++ asksOf n es' := by
  simp [asksOf]

@[simp] theorem asksOf_asked (n number : Nat) (id : DocumentId) (isFirst : Bool) :
    asksOf n [.asked number id isFirst] = if number = n then [isFirst] else [] := by
  by_cases h : number = n <;> simp [asksOf, h]

/-- Only the first of so many. -/
def firstOnly (n : Nat) : List Bool := (List.range n).map (· == 0)

theorem firstOnly_succ (n : Nat) : firstOnly (n + 1) = firstOnly n ++ [n == 0] := by
  simp [firstOnly, List.range_succ]

namespace Report

/-- Whether the entry says what a cycle for the document has come to. -/
def isOutcomeOf (id : DocumentId) : Report → Bool
  | .published x _ | .discarded x | .failed x _ => x = id
  | _ => false

/-- Whether the entry is about the end of a cycle. -/
def isOfCycle : Report → Bool
  | .timed | .published .. | .discarded _ | .failed .. => true
  | _ => false

end Report

/-- What was logged about the ends of cycles. -/
def endsIn (es : List Event) : List Report :=
  es.filterMap fun
    | .logged r => if r.isOfCycle then some r else none
    | _ => none

@[simp] theorem endsIn_nil : endsIn [] = [] := rfl

@[simp] theorem endsIn_append (es es' : List Event) :
    endsIn (es ++ es') = endsIn es ++ endsIn es' := by
  simp [endsIn]

theorem endsIn_finished {r : Report} {id : DocumentId} (h : r.isOutcomeOf id = true) :
    endsIn (Configuration.finished r) = [.timed, r] := by
  cases r with
  | published => rfl
  | discarded => rfl
  | failed => rfl
  | _ => cases h

/-- Nothing was shown about any cycle. -/
structure Plain (shown : List Event) : Prop where
  starts : startsIn shown = [] := by rfl
  asks : ∀ n, asksOf n shown = [] := by exact fun _ => rfl
  ends : endsIn shown = [] := by rfl

namespace Configuration

/-- The cycle that a move polls. -/
def polledBy (c : Configuration) : Move → Option Cycle
  | .poll place => c.pending[place]?
  | _ => none

/-- The cycle that a move drops. -/
def droppedBy (c : Configuration) : Move → Option Cycle
  | .abandon place => c.pending[place]?
  | _ => none

/-- The cycles that the moves of a run pick from the queue, in order. -/
def pickedIn (pick : Configuration → Move → Option Cycle) :
    Configuration → List Move → List Cycle
  | _, [] => []
  | c, m :: ms => (pick c m).toList ++ pickedIn pick (c.step m).1 ms

@[simp] theorem pickedIn_nil (pick : Configuration → Move → Option Cycle) (c : Configuration) :
    pickedIn pick c [] = [] := rfl

@[simp] theorem pickedIn_cons (pick : Configuration → Move → Option Cycle) (c : Configuration)
    (m : Move) (ms : List Move) :
    pickedIn pick c (m :: ms) = (pick c m).toList ++ pickedIn pick (c.step m).1 ms := rfl

/-- Moves that pick no cycle. -/
def picksNone (c : Configuration) (m : Move) : Bool :=
  (c.polledBy m).isNone && (c.droppedBy m).isNone

/-- The cycles that are being dealt with, innermost first. -/
def underWay (c : Configuration) : List Cycle := c.stack.filterMap Frame.cycle?

/-- Every cycle there has been, in the end or still in flight. -/
def everyCycle (c : Configuration) (dropped : List Cycle) (ended : List (Cycle × Report)) :
    List Cycle :=
  ended.map Prod.fst ++ dropped ++ c.cycles

/-- What was shown, against the cycles that were polled, that were dropped, and that have come to
their ends. -/
structure Books (c : Configuration) (es : List Event) (polls : List Nat) (dropped : List Cycle)
    (ended : List (Cycle × Report)) : Prop where
  numbered : (startsIn es).map Prod.fst = List.range c.nextCycle
  /-- Each cycle that was started has ended, was dropped, or is in flight. -/
  all : ((c.everyCycle dropped ended).map fun cycle => (cycle.number, cycle.id)).Perm
    ((startsIn es).map fun start => (start.1, start.2.1))
  known : ∀ n ∈ polls, n < c.nextCycle
  /-- The first poll has the document compiled, and no other one. -/
  asks : ∀ n, asksOf n es = firstOnly (polls.count n)
  polled : ∀ cycle ∈ c.everyCycle dropped ended, cycle.isStarted = true ↔ cycle.number ∈ polls
  underWay : ∀ cycle ∈ c.underWay, cycle.isStarted = true
  /-- What is logged about the ends of cycles is for each that has ended the time it took, and then
  what it came to. -/
  ends : endsIn es = ended.flatMap fun e => [.timed, e.2]
  ended : ∀ e ∈ ended, e.1.isStarted = true ∧ e.2.isOutcomeOf e.1.id = true

/-- What a change does to the cycles, if it picks none: it leaves them as they are, or has one go
back to the queue; or one is started; or one comes to its end. -/
inductive Turnover (c : Configuration) (shown : List Event) (c' : Configuration) : Prop
  | kept (hcycles : c'.cycles.Perm c.cycles) (hunderWay : c'.underWay ⊆ c.underWay)
    (hnext : c'.nextCycle = c.nextCycle) (hshown : Plain shown)
  | started {i : DocumentIndex} {id : DocumentId} {label : String}
    (hpending : c'.pending = c.pending ++ [⟨c.nextCycle, i, id, false⟩])
    (hunderWay : c'.underWay = c.underWay) (hnext : c'.nextCycle = c.nextCycle + 1)
    (hshown : shown = [.started c.nextCycle id label])
  | ended {cycle : Cycle} {r : Report} (hr : r.isOutcomeOf cycle.id = true)
    (hpending : c'.pending = c.pending) (hunderWay : c.underWay = cycle :: c'.underWay)
    (hnext : c'.nextCycle = c.nextCycle) (hshown : shown = finished r)

variable {rule : Configuration → Move → Bool} {c c' : Configuration} {es shown : List Event}
  {polls : List Nat} {dropped : List Cycle} {ended : List (Cycle × Report)}

/-! ## What changes do to the cycles -/

theorem cycles_eq (c : Configuration) : c.cycles = c.pending ++ c.underWay := rfl

theorem underWay_of_stack {f : Frame} {stack : List Frame} (hs : c.stack = f :: stack) :
    c.underWay = f.cycle?.toList ++ stack.filterMap Frame.cycle? := by
  rw [underWay, hs, List.filterMap_cons]
  cases f.cycle? <;> rfl

namespace Turnover

theorem still (hpending : c'.pending = c.pending := by rfl)
    (hunderWay : c'.underWay = c.underWay := by rfl)
    (hnext : c'.nextCycle = c.nextCycle := by rfl) (hshown : Plain shown := by exact {}) :
    Turnover c shown c' := by
  apply kept
  · rw [cycles_eq, cycles_eq, hpending, hunderWay]
  · rw [hunderWay]
    exact List.Subset.refl _
  · exact hnext
  · exact hshown

/-- Work that is replaced by other work for the same cycle. -/
theorem replaced {f : Frame} {stack : List Frame} (fs : List Frame) (hs : c.stack = f :: stack)
    (hs' : c'.stack = fs ++ stack := by rfl)
    (hfs : fs.filterMap Frame.cycle? = f.cycle?.toList := by rfl)
    (hpending : c'.pending = c.pending := by rfl) (hnext : c'.nextCycle = c.nextCycle := by rfl)
    (hshown : Plain shown := by exact {}) : Turnover c shown c' := by
  apply still hpending _ hnext hshown
  rw [underWay_of_stack hs, ← hfs, underWay, hs', List.filterMap_append]

theorem startCycle {b : Configuration} (i : DocumentIndex) (d : Document)
    (hpending : b.pending = c.pending := by rfl) (hunderWay : b.underWay = c.underWay := by rfl)
    (hnext : b.nextCycle = c.nextCycle := by rfl) :
    Turnover c (b.startCycle i d).2 (b.startCycle i d).1 := by
  apply started
  · rw [← hpending, ← hnext]
    rfl
  · exact hunderWay
  · rw [← hnext]
    rfl
  · rw [← hnext]
    rfl

/-- Publishing says nothing about cycles. -/
theorem publishSome {b : Configuration} (source : Source) (o : Option Invalidation)
    (hpending : b.pending = c.pending := by rfl) (hunderWay : b.underWay = c.underWay := by rfl)
    (hnext : b.nextCycle = c.nextCycle := by rfl) :
    Turnover c (b.publishSome source o).2 (b.publishSome source o).1 := by
  cases o with
  | none => exact .still hpending hunderWay hnext
  | some i => exact .still hpending hunderWay hnext

end Turnover

theorem Change.turnover (h : Change picksNone c shown c') : Turnover c shown c' := by
  cases h with
  | register => exact .still
  | release => exact .still
  | skip => exact .still
  | start => exact .startCycle _ _
  | watch => exact .still
  | watchDestroyed =>
    rw [forgetDocument_eq]
    exact .publishSome _ _
  | poll hc hm h =>
    rw [picksNone, polledBy, h] at hm
    cases hm
  | abandon place hc hm =>
    have hout : c.pending.eraseIdx place = c.pending := by
      apply List.eraseIdx_of_length_le
      simpa [picksNone, polledBy, droppedBy] using hm
    exact .still hout
  | openDocument => exact .still
  | destroy => exact .still
  | edit => exact .still
  | focus => exact .still
  | dispose => exact .still
  | dropHandle => exact .still
  | returns hm hs => exact .replaced [] hs
  | @busy cycle place stack hm hs =>
    have hback := List.perm_insertIdx cycle c.pending (Nat.min_le_right place _)
    have hunderWay := underWay_of_stack hs
    -- the cycle goes back to its place, or to the end of a queue that has become shorter
    refine .kept ?_ ?_ rfl {}
    · rw [cycles_eq c, hunderWay]
      exact (hback.append_right _).trans List.perm_middle.symm
    · rw [hunderWay]
      exact List.subset_append_right _ _
  | discard hm hs hr =>
    refine .ended ?_ rfl (underWay_of_stack hs) rfl rfl
    rcases hr with rfl | ⟨e, rfl⟩ <;> exact decide_eq_true rfl
  | resume hm hs => exact .publishSome _ _ rfl (underWay_of_stack hs).symm
  | hand hs => exact .replaced [_, _] hs
  | handed hs => exact .replaced [] hs
  | update hs => exact .replaced [_, _] hs
  | record hs => exact .replaced [_] hs
  | leave hs => exact .replaced [_] hs
  | retract hs => exact .replaced [_, _] hs
  | @finish cycle files stack hs =>
    have hr : (Report.published cycle.id files).isOutcomeOf cycle.id = true := decide_eq_true rfl
    exact .ended hr rfl (underWay_of_stack hs) rfl rfl
  | letGo hs =>
    exact .replaced [] hs (stack_releaseWatch _ _) rfl (pending_releaseWatch _ _)
      (nextCycle_releaseWatch _ _)
  | called hs => exact .replaced [] hs
  | call hs =>
    rw [forgetDocument_eq]
    exact .publishSome _ _ rfl (underWay_of_stack hs).symm
  | miss hs => exact .replaced [_] hs
  | @attach i id key stack hs hw =>
    unfold Configuration.attach
    rw [if_pos (show (c.setStack stack).provider.tracker.isWatched id = true from hw)]
    have hunderWay : ((c.setStack stack).releaseWatch id).underWay = c.underWay := by
      rw [underWay, stack_releaseWatch, underWay_of_stack hs]
      rfl
    dsimp only
    split
    · exact .still (pending_releaseWatch _ _) hunderWay (nextCycle_releaseWatch _ _)
    · exact .startCycle _ _ (pending_releaseWatch _ _) hunderWay (nextCycle_releaseWatch _ _)
  | detach hs => exact .replaced [] hs
  | reap => exact .still

/-! ## Keeping the books -/

theorem everyCycle_cons {cycle : Cycle} (hcycles : c'.cycles.Perm (cycle :: c.cycles)) :
    (c'.everyCycle dropped ended).Perm (cycle :: c.everyCycle dropped ended) :=
  (hcycles.append_left _).trans List.perm_middle

theorem everyCycle_ended (cycle : Cycle) (r : Report) :
    (c.everyCycle dropped (ended ++ [(cycle, r)])).Perm (cycle :: c.everyCycle dropped ended) := by
  rw [everyCycle, everyCycle, List.map_append, List.append_assoc, List.append_assoc,
    List.append_assoc]
  exact List.perm_middle

theorem everyCycle_dropped (cycle : Cycle) :
    (c.everyCycle (dropped ++ [cycle]) ended).Perm (cycle :: c.everyCycle dropped ended) := by
  rw [everyCycle, everyCycle, ← List.append_assoc, List.append_assoc]
  exact List.perm_middle

/-- A cycle that is taken from the queue. -/
theorem cycles_eraseIdx {cycle : Cycle} {place : Nat} (hcycle : c.pending[place]? = some cycle)
    (hpending : c'.pending = c.pending.eraseIdx place) (hunderWay : c'.underWay = c.underWay) :
    c.cycles.Perm (cycle :: c'.cycles) := by
  obtain ⟨hplace, rfl⟩ := List.getElem?_eq_some_iff.mp hcycle
  rw [cycles_eq, cycles_eq, hpending, hunderWay]
  exact (List.getElem_cons_eraseIdx_perm hplace).symm.append_right _

namespace Books

theorem new (settings : Settings) (documents : List Document) :
    (Configuration.new settings documents).Books [] [] [] [] where
  numbered := rfl
  all := .refl _
  known := List.forall_mem_nil _
  asks := fun _ => rfl
  polled := List.forall_mem_nil _
  underWay := List.forall_mem_nil _
  ends := rfl
  ended := List.forall_mem_nil _

theorem numbers (h : c.Books es polls dropped ended) :
    ((c.everyCycle dropped ended).map Cycle.number).Perm (List.range c.nextCycle) := by
  have hall := h.all.map Prod.fst
  rw [List.map_map, List.map_map] at hall
  rw [← h.numbered]
  exact hall

theorem number_lt {cycle : Cycle} (h : c.Books es polls dropped ended)
    (hcycle : cycle ∈ c.everyCycle dropped ended) : cycle.number < c.nextCycle := by
  apply List.mem_range.mp
  exact h.numbers.subset (List.mem_map_of_mem hcycle)

/-- Cycles that only go from one list to another. -/
theorem moved {dropped' : List Cycle} {ended' : List (Cycle × Report)}
    (h : c.Books es polls dropped ended)
    (hevery : (c'.everyCycle dropped' ended').Perm (c.everyCycle dropped ended))
    (hnext : c'.nextCycle = c.nextCycle) (hunderWay : c'.underWay ⊆ c.underWay)
    (hstarts : startsIn shown = []) (hasks : ∀ n, asksOf n shown = [])
    (hends : endsIn (es ++ shown) = ended'.flatMap fun e => [.timed, e.2])
    (hended : ∀ e ∈ ended', e.1.isStarted = true ∧ e.2.isOutcomeOf e.1.id = true) :
    c'.Books (es ++ shown) polls dropped' ended' where
  numbered := by
    rw [startsIn_append, hstarts, List.append_nil, hnext]
    exact h.numbered
  all := by
    rw [startsIn_append, hstarts, List.append_nil]
    exact (hevery.map _).trans h.all
  known := by
    rw [hnext]
    exact h.known
  asks := by
    intro n
    rw [asksOf_append, hasks, List.append_nil]
    exact h.asks n
  polled := fun cycle hcycle => h.polled cycle (hevery.subset hcycle)
  underWay := fun cycle hcycle => h.underWay cycle (hunderWay hcycle)
  ends := hends
  ended := hended

theorem keep (h : c.Books es polls dropped ended) (hcycles : c'.cycles.Perm c.cycles)
    (hunderWay : c'.underWay ⊆ c.underWay) (hnext : c'.nextCycle = c.nextCycle)
    (hshown : Plain shown) : c'.Books (es ++ shown) polls dropped ended := by
  refine h.moved (hcycles.append_left _) hnext hunderWay hshown.starts hshown.asks ?_ h.ended
  rw [endsIn_append, hshown.ends, List.append_nil]
  exact h.ends

theorem start {i : DocumentIndex} {id : DocumentId} {label : String}
    (h : c.Books es polls dropped ended)
    (hpending : c'.pending = c.pending ++ [⟨c.nextCycle, i, id, false⟩])
    (hunderWay : c'.underWay = c.underWay) (hnext : c'.nextCycle = c.nextCycle + 1) :
    c'.Books (es ++ [.started c.nextCycle id label]) polls dropped ended := by
  have hevery : (c'.everyCycle dropped ended).Perm
      (⟨c.nextCycle, i, id, false⟩ :: c.everyCycle dropped ended) := by
    apply everyCycle_cons
    rw [cycles_eq, cycles_eq, hpending, hunderWay, List.append_assoc]
    exact List.perm_middle
  have hstarts : startsIn [.started c.nextCycle id label] = [(c.nextCycle, id, label)] := rfl
  constructor
  case numbered =>
    rw [startsIn_append, hstarts, List.map_append, h.numbered, hnext, List.range_succ]
    rfl
  case all =>
    rw [startsIn_append, hstarts, List.map_append]
    apply (hevery.map _).trans
    exact (h.all.cons _).trans (List.perm_append_singleton _ _).symm
  case known =>
    intro n hn
    rw [hnext]
    exact Nat.lt_succ_of_lt (h.known n hn)
  case asks =>
    intro n
    rw [asksOf_append, h.asks]
    exact List.append_nil _
  case polled =>
    intro cycle hcycle
    rcases List.mem_cons.mp (hevery.subset hcycle) with rfl | hcycle
    · have hnot : c.nextCycle ∉ polls := fun hn => Nat.lt_irrefl _ (h.known _ hn)
      simp [hnot]
    · exact h.polled cycle hcycle
  case underWay =>
    rw [hunderWay]
    exact h.underWay
  case ends =>
    rw [endsIn_append, h.ends]
    exact List.append_nil _
  case ended => exact h.ended

theorem finish {cycle : Cycle} {r : Report} (h : c.Books es polls dropped ended)
    (hr : r.isOutcomeOf cycle.id = true) (hpending : c'.pending = c.pending)
    (hunderWay : c.underWay = cycle :: c'.underWay) (hnext : c'.nextCycle = c.nextCycle) :
    c'.Books (es ++ finished r) polls dropped (ended ++ [(cycle, r)]) := by
  apply h.moved _ hnext _ rfl (fun _ => rfl)
  · rw [endsIn_append, endsIn_finished hr, h.ends, List.flatMap_append]
    rfl
  · intro e he
    rcases List.mem_append.mp he with he | he
    · exact h.ended e he
    · obtain rfl := List.mem_singleton.mp he
      refine ⟨h.underWay cycle ?_, hr⟩
      rw [hunderWay]
      exact List.mem_cons_self
  · have hcycles : c.cycles.Perm (cycle :: c'.cycles) := by
      rw [cycles_eq, cycles_eq, hpending, hunderWay]
      exact List.perm_middle
    exact (everyCycle_ended cycle r).trans (everyCycle_cons hcycles).symm
  · rw [hunderWay]
    exact List.subset_cons_self _ _

theorem drop {cycle : Cycle} {place : Nat} (h : c.Books es polls dropped ended)
    (hcycle : c.pending[place]? = some cycle) (hpending : c'.pending = c.pending.eraseIdx place)
    (hunderWay : c'.underWay = c.underWay) (hnext : c'.nextCycle = c.nextCycle) :
    c'.Books es polls (dropped ++ [cycle]) ended := by
  have hbefore : (c.everyCycle dropped ended).Perm (cycle :: c'.everyCycle dropped ended) :=
    everyCycle_cons (cycles_eraseIdx hcycle hpending hunderWay)
  have hends : endsIn (es ++ []) = ended.flatMap fun e => [.timed, e.2] := by
    rw [List.append_nil]
    exact h.ends
  rw [← List.append_nil es]
  apply h.moved _ hnext _ rfl (fun _ => rfl) hends h.ended
  · exact (everyCycle_dropped cycle).trans hbefore.symm
  · rw [hunderWay]
    exact List.Subset.refl _

/-- The first poll of a cycle has its document compiled, and no other one. -/
theorem poll {cycle : Cycle} {place : Nat} (h : c.Books es polls dropped ended)
    (hcycle : c.pending[place]? = some cycle) (hpending : c'.pending = c.pending.eraseIdx place)
    (hunderWay : c'.underWay = { cycle with isStarted := true } :: c.underWay)
    (hnext : c'.nextCycle = c.nextCycle) :
    c'.Books (es ++ [.asked cycle.number cycle.id (! cycle.isStarted)]) (polls ++ [cycle.number])
      dropped ended := by
  -- the other cycles, which are the same before and after
  obtain ⟨b, hb⟩ : ∃ b, b = { c with pending := c.pending.eraseIdx place } := ⟨_, rfl⟩
  have hbefore : (c.everyCycle dropped ended).Perm (cycle :: b.everyCycle dropped ended) := by
    apply everyCycle_cons
    apply cycles_eraseIdx hcycle
    · rw [hb]
    · rw [hb]
      rfl
  have hafter : (c'.everyCycle dropped ended).Perm
      ({ cycle with isStarted := true } :: b.everyCycle dropped ended) := by
    apply everyCycle_cons
    rw [cycles_eq, hpending, hunderWay, hb]
    exact List.perm_middle
  have hmem : cycle ∈ c.everyCycle dropped ended := hbefore.mem_iff.mpr List.mem_cons_self
  have hfirst : (! cycle.isStarted) = (polls.count cycle.number == 0) := by
    rw [Bool.eq_iff_iff]
    simp [List.count_eq_zero, ← h.polled cycle hmem]
  have hothers (other : Cycle) (hother : other ∈ b.everyCycle dropped ended) :
      other.number ≠ cycle.number := by
    have hnodup := h.numbers.nodup_iff.mpr List.nodup_range
    replace hnodup := (hbefore.map Cycle.number).nodup_iff.mp hnodup
    rw [List.map_cons, List.nodup_cons] at hnodup
    intro heq
    apply hnodup.1
    rw [← heq]
    exact List.mem_map_of_mem hother
  constructor
  case numbered =>
    rw [startsIn_append, hnext]
    exact (congrArg _ (List.append_nil _)).trans h.numbered
  case all =>
    rw [startsIn_append]
    apply (hafter.map _).trans
    exact (hbefore.symm.map _).trans (h.all.trans (by simp [startsIn]))
  case known =>
    intro n hn
    rw [hnext]
    rcases List.mem_append.mp hn with hn | hn
    · exact h.known n hn
    · rw [List.mem_singleton.mp hn]
      exact h.number_lt hmem
  case asks =>
    intro n
    rw [asksOf_append, asksOf_asked, h.asks, List.count_append, List.count_singleton]
    by_cases hn : cycle.number = n
    · subst hn
      rw [if_pos rfl, if_pos (beq_self_eq_true _), firstOnly_succ, hfirst]
    · simp [hn]
  case polled =>
    intro other hother
    rw [List.mem_append, List.mem_singleton]
    rcases List.mem_cons.mp (hafter.subset hother) with rfl | hother
    · simp
    · have hne := hothers other hother
      simp [hne, h.polled other (hbefore.mem_iff.mpr (List.mem_cons_of_mem _ hother))]
  case underWay =>
    rw [hunderWay]
    exact List.forall_mem_cons.mpr ⟨rfl, h.underWay⟩
  case ends =>
    rw [endsIn_append, h.ends]
    exact List.append_nil _
  case ended => exact h.ended

theorem change (h : c.Books es polls dropped ended) (hchange : Change picksNone c shown c') :
    ∃ ended', c'.Books (es ++ shown) polls dropped ended' := by
  cases hchange.turnover with
  | kept hcycles hunderWay hnext hshown => exact ⟨ended, h.keep hcycles hunderWay hnext hshown⟩
  | started hpending hunderWay hnext hshown =>
    rw [hshown]
    exact ⟨ended, h.start hpending hunderWay hnext⟩
  | ended hr hpending hunderWay hnext hshown =>
    rw [hshown]
    exact ⟨_, h.finish hr hpending hunderWay hnext⟩

theorem chain (h : c.Books es polls dropped ended) (hchain : Chain picksNone c shown c') :
    ∃ ended', c'.Books (es ++ shown) polls dropped ended' :=
  hchain.keeps (P := fun c es => ∃ ended, c.Books es polls dropped ended)
    (fun ⟨_, h⟩ hchange => h.change hchange) ⟨ended, h⟩

theorem begin (h : c.Books es polls dropped ended) (hc : c.Ready) (m : Move) :
    ∃ ended', (c.begin m).1.Books (es ++ (c.begin m).2)
      (polls ++ (c.polledBy m).toList.map Cycle.number) (dropped ++ (c.droppedBy m).toList)
      ended' := by
  cases hpolled : c.polledBy m with
  | some cycle =>
    cases m with
    | poll place =>
      have hcycle : c.pending[place]? = some cycle := hpolled
      rw [Configuration.begin, hcycle]
      simp only [droppedBy, Option.toList_none, List.append_nil]
      exact ⟨ended, h.poll hcycle rfl rfl rfl⟩
    | _ => cases hpolled
  | none =>
    cases hdropped : c.droppedBy m with
    | some cycle =>
      cases m with
      | abandon place =>
        have hcycle : c.pending[place]? = some cycle := hdropped
        rw [Configuration.begin]
        simp only [Option.toList_none, List.map_nil, List.append_nil]
        exact ⟨ended, h.drop hcycle rfl rfl rfl⟩
      | _ => cases hdropped
    | none =>
      have hpicks : picksNone c m = true := by
        rw [picksNone, hpolled, hdropped]
        rfl
      simp only [Option.toList_none, List.map_nil, List.append_nil]
      exact h.chain (chain_begin hc hpicks)

theorem step (h : c.Books es polls dropped ended) (hc : c.Ready) (m : Move) :
    ∃ ended', (c.step m).1.Books (es ++ (c.step m).2)
      (polls ++ (c.polledBy m).toList.map Cycle.number) (dropped ++ (c.droppedBy m).toList)
      ended' := by
  obtain ⟨settled, hsettled⟩ := settle_keeps
    (P := fun b es => ∃ ended', b.Books es (polls ++ (c.polledBy m).toList.map Cycle.number)
      (dropped ++ (c.droppedBy m).toList) ended')
    (fun ⟨_, h⟩ hadvance => h.change (change_advance hadvance)) (h.begin hc m)
  have hreaped := hsettled.chain (Pass.reap (advance_settle _)).chain
  rw [List.append_nil, List.append_assoc] at hreaped
  exact hreaped

theorem run (h : c.Books es polls dropped ended) (hc : c.Ready) (ms : List Move) :
    ∃ ended', (c.run ms).1.Books (es ++ (c.run ms).2)
      (polls ++ (pickedIn polledBy c ms).map Cycle.number)
      (dropped ++ pickedIn droppedBy c ms) ended' := by
  induction ms generalizing c es polls dropped ended with
  | nil => exact ⟨ended, by simpa using h⟩
  | cons m ms ih =>
    obtain ⟨ended', hstep⟩ := h.step hc m
    obtain ⟨ended'', hrun⟩ := ih hstep (ready_step c m)
    rw [run_cons, pickedIn_cons, pickedIn_cons, List.map_append, ← List.append_assoc,
      ← List.append_assoc, ← List.append_assoc]
    exact ⟨ended'', hrun⟩

end Books

/-- In every run with arbitrary listeners each trigger has one cycle started or none, and nothing
else has any started. A cycle has its document compiled when it is polled for the first time, and
when it comes to its end it logs how long it took and then what came of it. -/
theorem run_cycles {settings : Settings} {documents : List Document} {ms : List Move}
    (h : Unwatched documents) (hms : admits opensNew (new settings documents) ms = true) :
    (∀ m i d, ((new settings documents).run ms).1.triggered m = some (i, d) →
      ((new settings documents).run ms).1.Answers m i d) ∧
    (∀ m, ((new settings documents).run ms).1.opensNew m = true →
      ((new settings documents).run ms).1.triggered m = none →
      startsIn (((new settings documents).run ms).1.step m).2 = []) ∧
    ∃ ended, ((new settings documents).run ms).1.Books ((new settings documents).run ms).2
      ((pickedIn polledBy (new settings documents) ms).map Cycle.number)
      (pickedIn droppedBy (new settings documents) ms) ended := by
  have hready := ready_new settings documents
  have hcoherent := coherent_run h hms
  have hready' := ready_run hready ms
  refine ⟨?_, ?_, ?_⟩
  · intro m i d ht
    exact hcoherent.answers hready' ht
  · intro m hm ht
    exact hcoherent.step_of_not_triggered hready' hm ht
  · exact (Books.new settings documents).run hready ms

/-- A listener is told that a document has been destroyed. -/
def toldOfDestruction : List Move :=
  [.listen .invalidations, .run 0, .poll 0, answerIn "/src/b.h", .destroy 0]

/-- If the listener has the document compiled, no cycle is started, but the watch that is being
handled is let go at once. -/
theorem watch_letGo_early :
    admits opensNew (new .default [savedDocument]) toldOfDestruction = true ∧
    ((new .default [savedDocument]).run toldOfDestruction).1.triggered (.run 0) =
      some (0, { savedDocument with isDestroyed := true }) ∧
    startsIn (((new .default [savedDocument]).run toldOfDestruction).1.step (.run 0)).2 = [] ∧
    ((new .default [savedDocument]).run toldOfDestruction).1.provider.watches ⟨1⟩ = some ⟨0, 0⟩ ∧
    (((new .default [savedDocument]).run toldOfDestruction).1.step
      (.run 0)).1.provider.watches ⟨1⟩ = none := by
  decide

/-- Of three cycles the first is polled until it comes to its end, and the second is dropped. -/
def threeCycles : List Move :=
  [.run 0, .run 0, .run 0, .poll 0, .answers none, .poll 0, answerIn "/src/b.h", .abandon 0]

theorem run_cycles_threeCycles :
    Unwatched [savedDocument] ∧
    admits opensNew (new .default [savedDocument]) threeCycles = true ∧
    startsIn (((new .default [savedDocument]).run threeCycles).1.step (.run 0)).2 =
      [(3, ⟨1⟩, "Clang: compiling `a.m`")] ∧
    startsIn (((new .default [savedDocument]).run threeCycles).1.step (.poll 0)).2 = [] ∧
    ∃ ended, ((new .default [savedDocument]).run threeCycles).1.Books
      ((new .default [savedDocument]).run threeCycles).2 [0, 0] [⟨1, 0, ⟨1⟩, false⟩] ended := by
  have hdocuments : Unwatched [savedDocument] := ⟨by decide, by decide⟩
  have hms : admits opensNew (new .default [savedDocument]) threeCycles = true := by decide
  obtain ⟨htriggers, hothers, hbooks⟩ := run_cycles hdocuments hms
  refine ⟨hdocuments, hms, ?_, ?_, hbooks⟩
  · exact ((htriggers (.run 0) 0 _ rfl).starts (by decide)).shown
  · exact hothers (.poll 0) rfl rfl

end Configuration

end DiagnosticRelay
