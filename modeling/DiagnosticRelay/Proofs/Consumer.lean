import DiagnosticRelay.DocumentId
import DiagnosticRelay.Proofs.Ledger
import Mathlib.Data.List.Induction

/-!
# What a consumer shows

A consumer of the notices keeps, for every path, the messages it shows: an update adds the messages
it has for the path, an invalidation that lists the path clears them. Notices do not say which
document they are published for, and the consumer cannot know. `displayWithSource` keeps track of
it on the consumer's behalf: the same display with every message marked by the identity of its
document.

When the notices for a document are balanced, what is displayed of it are the messages of its last
update, or none (`displayOf_eq`). They are not there in two cases. The paths that are due are all a
document can have messages on (`displayOf_eq_nil`), and an invalidation for another document clears
a path for all.
-/

namespace DiagnosticRelay

/-- Whether a notice asks to clear a path. -/
def Notice.clears (p : Path) : Notice → Bool
  | .update _ => false
  | .invalidation i => i.paths.any fun q => Path.Same q p

/-- The messages that a notice has for a path. -/
def Notice.brings (p : Path) : Notice → List Message
  | .update u => (u.messagesFor? p).getD []
  | .invalidation _ => []

/-- What is shown for a path after some notices. -/
def display (p : Path) (ns : List Notice) : List Message :=
  ns.foldl (fun ms n => if n.clears p then [] else ms ++ n.brings p) []

/-- What is shown for a path, every message with the identity it was published for. -/
def displayWithSource (p : Path) (ns : List (DocumentId × Notice)) :
    List (DocumentId × Message) :=
  ns.foldl (fun ms n => if n.2.clears p then [] else ms ++ (n.2.brings p).map (Prod.mk n.1)) []

/-- What is shown of one document for a path. -/
def displayOf (id : DocumentId) (p : Path) (ns : List (DocumentId × Notice)) : List Message :=
  ((displayWithSource p ns).filter (·.1 = id)).map Prod.snd

/-- The notices for one document. -/
def noticesFor (id : DocumentId) (ns : List (DocumentId × Notice)) : List Notice :=
  (ns.filter (·.1 = id)).map Prod.snd

variable {id : DocumentId} {p : Path} {ns : List (DocumentId × Notice)}

@[simp] theorem display_nil (p : Path) : display p [] = [] := rfl

theorem display_append_singleton (p : Path) (ns : List Notice) (n : Notice) :
    display p (ns ++ [n]) = if n.clears p then [] else display p ns ++ n.brings p := by
  simp [display]

@[simp] theorem displayWithSource_nil (p : Path) : displayWithSource p [] = [] := rfl

theorem displayWithSource_append_singleton (p : Path) (ns : List (DocumentId × Notice))
    (n : DocumentId × Notice) :
    displayWithSource p (ns ++ [n]) = if n.2.clears p then []
      else displayWithSource p ns ++ (n.2.brings p).map (Prod.mk n.1) := by
  simp [displayWithSource]

/-- Marking the messages changes nothing about what is shown. -/
theorem map_snd_displayWithSource (p : Path) (ns : List (DocumentId × Notice)) :
    (displayWithSource p ns).map Prod.snd = display p (ns.map Prod.snd) := by
  induction ns using List.reverseRecOn with
  | nil => rfl
  | append_singleton ns n ih =>
    rw [displayWithSource_append_singleton, List.map_append, List.map_singleton,
      display_append_singleton, ← ih]
    split
    · rfl
    · simp [Function.comp_def]

@[simp] theorem displayOf_nil (id : DocumentId) (p : Path) : displayOf id p [] = [] := rfl

theorem displayOf_append_singleton (id : DocumentId) (p : Path) (ns : List (DocumentId × Notice))
    (x : DocumentId) (n : Notice) :
    displayOf id p (ns ++ [(x, n)]) = if n.clears p then []
      else displayOf id p ns ++ if x = id then n.brings p else [] := by
  rw [displayOf, displayWithSource_append_singleton]
  split
  · rfl
  · have hbrings : (((n.brings p).map (Prod.mk x)).filter (·.1 = id)).map Prod.snd =
        if x = id then n.brings p else [] := by
      by_cases hx : x = id <;> simp [List.filter_map, Function.comp_def, hx]
    rw [List.filter_append, List.map_append, hbrings]
    rfl

@[simp] theorem noticesFor_append (id : DocumentId) (ns ns' : List (DocumentId × Notice)) :
    noticesFor id (ns ++ ns') = noticesFor id ns ++ noticesFor id ns' := by
  simp [noticesFor]

theorem noticesFor_singleton (id x : DocumentId) (n : Notice) :
    noticesFor id [(x, n)] = if x = id then [n] else [] := by
  by_cases hx : x = id
  · simp [noticesFor, hx]
  · simp [noticesFor, hx]

theorem mem_noticesFor {n : Notice} : n ∈ noticesFor id ns ↔ (id, n) ∈ ns := by
  simp [noticesFor]

theorem noticesFor_eq_nil_iff : noticesFor id ns = [] ↔ ∀ n ∈ ns, n.1 ≠ id := by
  simp [noticesFor]

theorem brings_eq_nil {u : Update} (h : ∀ q ∈ u.paths, ¬ Path.Same q p) :
    (Notice.update u).brings p = [] := by
  have hnone : u.messagesFor? p = none := by
    rw [Update.messagesFor?, Option.map_eq_none_iff, List.find?_eq_none]
    intro entry hentry
    simpa using h entry.1 (List.mem_map_of_mem hentry)
  rw [Notice.brings, hnone]
  rfl

/-- A document has messages on the paths that are due, and on no others. -/
theorem displayOf_eq_nil {last due : List Path} (h : Balanced (noticesFor id ns) last due)
    (hp : ∀ q ∈ due, ¬ Path.Same q p) : displayOf id p ns = [] := by
  induction ns using List.reverseRecOn generalizing last due with
  | nil => rfl
  | append_singleton ns n ih =>
    obtain ⟨x, n⟩ := n
    rw [noticesFor_append, noticesFor_singleton] at h
    rw [displayOf_append_singleton]
    by_cases hx : x = id
    · rw [if_pos hx] at h ⊢
      cases n with
      | update u =>
        obtain ⟨_, hbefore⟩ := h.of_append_update
        have hnone := brings_eq_nil (h.due_of_update ▸ hp)
        rw [ih hbefore (List.forall_mem_nil _), hnone]
        exact if_neg Bool.false_ne_true
      | invalidation i =>
        obtain ⟨hbefore, _, _⟩ := h.of_append_invalidation
        split
        · rfl
        · next hclears =>
          rw [ih hbefore fun q hq hsame => hclears (List.any_eq_true.mpr ⟨q, hq, by simpa⟩)]
          rfl
    · rw [if_neg hx, List.append_nil] at h
      rw [if_neg hx, List.append_nil, ih h hp, ite_self]

/-- Notices for others add nothing, but what they clear is cleared for all. -/
theorem displayOf_append (ns : List (DocumentId × Notice)) {after : List (DocumentId × Notice)}
    (h : ∀ n ∈ after, n.1 ≠ id) (p : Path) :
    displayOf id p (ns ++ after) =
      if after.any (·.2.clears p) then [] else displayOf id p ns := by
  induction after using List.reverseRecOn with
  | nil => simp
  | append_singleton after n ih =>
    obtain ⟨x, n⟩ := n
    have hx : x ≠ id := h (x, n) (List.mem_append_right _ List.mem_cons_self)
    have hany : (after ++ [(x, n)]).any (·.2.clears p) =
        (after.any (·.2.clears p) || n.clears p) := by simp
    rw [← List.append_assoc, displayOf_append_singleton, if_neg hx, List.append_nil,
      ih fun n hn => h n (List.mem_append_left _ hn), hany]
    cases n.clears p with
    | true => simp
    | false => rw [Bool.or_false, if_neg Bool.false_ne_true]

/-- After its last update a document is displayed as that update has it, except on the paths that
have been cleared since. -/
theorem displayOf_eq {before after : List (DocumentId × Notice)} {u : Update} {last due : List Path}
    (h : Balanced (noticesFor id (before ++ [(id, .update u)])) last due)
    (hafter : ∀ n ∈ after, n.1 ≠ id) (p : Path) :
    displayOf id p (before ++ (id, .update u) :: after) =
      if after.any (·.2.clears p) then [] else (u.messagesFor? p).getD [] := by
  rw [noticesFor_append, noticesFor_singleton, if_pos rfl] at h
  obtain ⟨_, hbefore⟩ := h.of_append_update
  have hupdate : displayOf id p (before ++ [(id, .update u)]) = (u.messagesFor? p).getD [] := by
    rw [displayOf_append_singleton, if_pos rfl, displayOf_eq_nil hbefore (List.forall_mem_nil _)]
    rfl
  rw [List.append_cons, displayOf_append _ hafter, hupdate]

end DiagnosticRelay
