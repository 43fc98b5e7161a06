/-
# Rate-limited work queues

A work queue hands out items one after another. An item is in it at most once: an
item that is added while it is queued already is merged with itself, and one that
is added while it is being processed is marked, and queued again when its
processing is done. A rate-limited addition delays an item first, and counts how
often the item has been delayed since it was last forgotten; the delay grows with
the count. Once the queue is shut down it takes no more items.

How long a delay is in time is left open. The delay of any waiting item may be the
next to be over, and equal waiting items may be merged.
-/

import Mathlib.Data.Finset.Erase
import Mathlib.Data.Finset.Insert
import Mathlib.Data.List.Nodup
import Mathlib.Logic.Function.Basic

universe u

/-- A rate-limited work queue. What is queued are exactly the items that were added
and are not being processed, each once. -/
structure WorkQueue (α : Type u) [DecidableEq α] where
  /-- The items whose delay is not over. -/
  waiting : List α
  queue : List α
  /-- The items to be processed. -/
  dirty : Finset α
  /-- The items handed out and not done. -/
  processing : Finset α
  /-- How often each item was delayed since it was last forgotten. -/
  failures : α → Nat
  shuttingDown : Bool
  nodup : queue.Nodup
  mem_queue : ∀ x, x ∈ queue ↔ x ∈ dirty ∧ x ∉ processing

namespace WorkQueue

variable {α : Type u} [DecidableEq α]

/-! ## Operations -/

def empty : WorkQueue α where
  waiting := []
  queue := []
  dirty := ∅
  processing := ∅
  failures := fun _ => 0
  shuttingDown := false
  nodup := List.nodup_nil
  mem_queue := by simp

/-- Add an item, unless it is to be processed already. -/
def add (q : WorkQueue α) (x : α) : WorkQueue α :=
  if hskip : q.shuttingDown = true ∨ x ∈ q.dirty then q
  else
    { q with
      queue := if x ∈ q.processing then q.queue else q.queue ++ [x]
      dirty := insert x q.dirty
      nodup := by
        have hnew : x ∉ q.queue := fun hx => hskip (Or.inr ((q.mem_queue x).mp hx).1)
        split
        · exact q.nodup
        · exact q.nodup.append (List.nodup_singleton x) (List.disjoint_singleton.mpr hnew)
      mem_queue := by
        intro y
        have hy := q.mem_queue y
        by_cases heq : y = x
        · subst heq
          have hnew : y ∉ q.queue := fun h => hskip (Or.inr (hy.mp h).1)
          by_cases hprocessing : y ∈ q.processing <;> simp [hprocessing, hnew]
        · by_cases hprocessing : x ∈ q.processing <;> simp [hprocessing, heq, hy] }

/-- Hand out the next item. -/
def get (q : WorkQueue α) : Option (α × WorkQueue α) :=
  match hqueue : q.queue with
  | [] => none
  | x :: rest =>
      some (x,
        { q with
          queue := rest
          dirty := q.dirty.erase x
          processing := insert x q.processing
          nodup := (List.nodup_cons.mp (hqueue ▸ q.nodup)).2
          mem_queue := by
            intro y
            have hy := q.mem_queue y
            have hx := (List.nodup_cons.mp (hqueue ▸ q.nodup)).1
            rw [hqueue] at hy
            by_cases heq : y = x
            · subst heq
              simp [hx]
            · simpa [heq] using hy })

/-- An item that was handed out is done; it is queued again if it was added
meanwhile. -/
def done (q : WorkQueue α) (x : α) : WorkQueue α :=
  { q with
    queue := if x ∈ q.dirty ∧ x ∈ q.processing then q.queue ++ [x] else q.queue
    processing := q.processing.erase x
    nodup := by
      split
      next hagain =>
        have hnew : x ∉ q.queue := fun hx => ((q.mem_queue x).mp hx).2 hagain.2
        exact q.nodup.append (List.nodup_singleton x) (List.disjoint_singleton.mpr hnew)
      · exact q.nodup
    mem_queue := by
      intro y
      have hy := q.mem_queue y
      by_cases heq : y = x
      · subst heq
        by_cases hagain : y ∈ q.dirty ∧ y ∈ q.processing
        · simp [hagain]
        · rw [if_neg hagain, hy]
          simp only [Finset.notMem_erase, not_false_eq_true, and_true]
          exact ⟨And.left, fun hdirty => ⟨hdirty, fun h => hagain ⟨hdirty, h⟩⟩⟩
      · by_cases hagain : x ∈ q.dirty ∧ x ∈ q.processing <;> simp [hagain, heq, hy] }

/-- Add an item after a delay, and count the delay. -/
def addRateLimited (q : WorkQueue α) (x : α) : WorkQueue α :=
  { q with
    waiting := if q.shuttingDown then q.waiting else q.waiting ++ [x]
    failures := Function.update q.failures x (q.failures x + 1) }

/-- Forget how often an item was delayed. -/
def forget (q : WorkQueue α) (x : α) : WorkQueue α :=
  { q with failures := Function.update q.failures x 0 }

/-- The delay of a waiting item is over. -/
def elapse (q : WorkQueue α) (x : α) : WorkQueue α :=
  add { q with waiting := q.waiting.erase x } x

/-- Two waiting items that are equal become one. -/
def merge (q : WorkQueue α) (x : α) : WorkQueue α :=
  { q with waiting := q.waiting.erase x }

/-- Take no more items. -/
def shutDown (q : WorkQueue α) : WorkQueue α := { q with shuttingDown := true }

/-- The delay that an item would be given next: it doubles with every delay that
was counted. -/
def nextDelay (base : Nat) (q : WorkQueue α) (x : α) : Nat := base * Nat.pow 2 (q.failures x)

/-! ## What the operations change -/

section

variable (q : WorkQueue α) (x y : α)

@[simp]
theorem add_waiting : (q.add x).waiting = q.waiting := by
  unfold add
  split <;> rfl

@[simp]
theorem add_processing : (q.add x).processing = q.processing := by
  unfold add
  split <;> rfl

@[simp]
theorem add_failures : (q.add x).failures = q.failures := by
  unfold add
  split <;> rfl

@[simp]
theorem add_shuttingDown : (q.add x).shuttingDown = q.shuttingDown := by
  unfold add
  split <;> rfl

theorem mem_add_dirty :
    y ∈ (q.add x).dirty ↔ y ∈ q.dirty ∨ (y = x ∧ q.shuttingDown = false) := by
  unfold add
  split
  next hskip =>
    apply Iff.intro Or.inl
    intro hy
    cases hy with
    | inl hdirty => exact hdirty
    | inr hnew =>
        cases hskip with
        | inl hdown => exact absurd hdown (by simp [hnew.2])
        | inr hdirty => exact hnew.1 ▸ hdirty
  next hadd =>
    have hopen : q.shuttingDown = false := by
      simpa using fun hdown => hadd (Or.inl hdown)
    simp [hopen, or_comm]

@[simp]
theorem elapse_processing : (q.elapse x).processing = q.processing := by simp [elapse]

@[simp]
theorem elapse_failures : (q.elapse x).failures = q.failures := by simp [elapse]

@[simp]
theorem elapse_shuttingDown : (q.elapse x).shuttingDown = q.shuttingDown := by simp [elapse]

theorem elapse_waiting : (q.elapse x).waiting = q.waiting.erase x := by simp [elapse]

theorem mem_elapse_dirty :
    y ∈ (q.elapse x).dirty ↔ y ∈ q.dirty ∨ (y = x ∧ q.shuttingDown = false) := by
  simp [elapse, mem_add_dirty]

theorem mem_addRateLimited_waiting :
    y ∈ (q.addRateLimited x).waiting ↔
      y ∈ q.waiting ∨ (y = x ∧ q.shuttingDown = false) := by
  cases hdown : q.shuttingDown <;> simp [addRateLimited, hdown]

end

/-- What an item that is handed out leaves behind. -/
theorem get_eq_some {q q' : WorkQueue α} {x : α} (hget : q.get = some (x, q')) :
    q'.waiting = q.waiting ∧ q'.dirty = q.dirty.erase x ∧
      q'.processing = insert x q.processing ∧ q'.failures = q.failures ∧
        q'.shuttingDown = q.shuttingDown ∧ x ∈ q.queue := by
  unfold get at hget
  split at hget
  next => exact absurd hget (by simp)
  next y rest hqueue =>
    obtain ⟨rfl, rfl⟩ := Prod.mk.inj (Option.some.inj hget)
    simp [hqueue]

/-! ## Items to come, and pending items -/

/-- The item is delayed or to be processed, so that it will be handed out. -/
def Coming (q : WorkQueue α) (x : α) : Prop := x ∈ q.waiting ∨ x ∈ q.dirty

/-- The item is delayed, queued or being processed. -/
def Pending (q : WorkQueue α) (x : α) : Prop :=
  x ∈ q.waiting ∨ x ∈ q.queue ∨ x ∈ q.processing

variable {q q' : WorkQueue α} {x y : α}

/-- An item to be processed is queued, unless it is being processed. -/
theorem pending_iff : q.Pending x ↔ q.Coming x ∨ x ∈ q.processing := by
  rw [Pending, Coming, q.mem_queue]
  by_cases hprocessing : x ∈ q.processing <;> simp [hprocessing]

theorem coming_addRateLimited (hopen : q.shuttingDown = false) :
    (q.addRateLimited x).Coming y ↔ q.Coming y ∨ y = x := by
  rw [Coming, mem_addRateLimited_waiting]
  simp [Coming, addRateLimited, hopen, or_right_comm]

theorem coming_of_addRateLimited (hcoming : (q.addRateLimited x).Coming y) :
    q.Coming y ∨ y = x := by
  rw [Coming, mem_addRateLimited_waiting] at hcoming
  cases hcoming with
  | inl hwaiting => exact hwaiting.imp Or.inl And.left
  | inr hdirty => exact Or.inl (Or.inr hdirty)

theorem coming_of_elapse (hx : x ∈ q.waiting) (hcoming : (q.elapse x).Coming y) :
    q.Coming y := by
  rw [Coming, elapse_waiting, mem_elapse_dirty] at hcoming
  cases hcoming with
  | inl hwaiting => exact Or.inl (List.mem_of_mem_erase hwaiting)
  | inr hdirty => exact hdirty.elim Or.inr fun hnew => Or.inl (hnew.1 ▸ hx)

/-- An item whose delay is over is to be processed. -/
theorem coming_elapse (hopen : q.shuttingDown = false) (hcoming : q.Coming y) :
    (q.elapse x).Coming y := by
  rw [Coming, elapse_waiting, mem_elapse_dirty]
  by_cases heq : y = x
  · exact Or.inr (Or.inr ⟨heq, hopen⟩)
  · rw [List.mem_erase_of_ne heq]
    exact hcoming.imp_right Or.inl

theorem coming_merge (hx : 2 ≤ q.waiting.count x) : (q.merge x).Coming y ↔ q.Coming y := by
  have hmem : y ∈ q.waiting.erase x ↔ y ∈ q.waiting := by
    by_cases heq : y = x
    · subst heq
      rw [← List.count_pos_iff, ← List.count_pos_iff, List.count_erase_self]
      omega
    · exact List.mem_erase_of_ne heq
  simp [Coming, merge, hmem]

/-- Only the item that is handed out may come no more. -/
theorem coming_of_get (hget : q.get = some (x, q')) (hcoming : q.Coming y) :
    q'.Coming y ∨ y = x := by
  obtain ⟨hwaiting, hdirty, -⟩ := get_eq_some hget
  by_cases heq : y = x
  · exact Or.inr heq
  · apply Or.inl
    simpa [Coming, hwaiting, hdirty, heq] using hcoming

theorem coming_get (hget : q.get = some (x, q')) (hcoming : q'.Coming y) : q.Coming y := by
  obtain ⟨hwaiting, hdirty, -⟩ := get_eq_some hget
  rw [Coming, hwaiting, hdirty] at hcoming
  exact hcoming.imp_right Finset.mem_of_mem_erase

theorem pending_addRateLimited (hopen : q.shuttingDown = false) :
    (q.addRateLimited x).Pending y ↔ q.Pending y ∨ y = x := by
  rw [pending_iff, pending_iff, coming_addRateLimited hopen, or_right_comm]
  rfl

theorem pending_elapse (hopen : q.shuttingDown = false) (hx : x ∈ q.waiting) :
    (q.elapse x).Pending y ↔ q.Pending y := by
  rw [pending_iff, pending_iff, elapse_processing]
  exact or_congr_left ⟨coming_of_elapse hx, coming_elapse hopen⟩

theorem pending_merge (hx : 2 ≤ q.waiting.count x) : (q.merge x).Pending y ↔ q.Pending y := by
  rw [pending_iff, pending_iff, coming_merge hx]
  rfl

/-- An item that is handed out stays pending. -/
theorem pending_get (hget : q.get = some (x, q')) : q'.Pending y ↔ q.Pending y := by
  obtain ⟨-, -, hprocessing, -, -, hx⟩ := get_eq_some hget
  rw [pending_iff, pending_iff, hprocessing, Finset.mem_insert]
  apply Iff.intro
  · intro hpending
    cases hpending with
    | inl hcoming => exact Or.inl (coming_get hget hcoming)
    | inr htaken =>
        cases htaken with
        | inl heq => exact Or.inl (Or.inr (heq ▸ ((q.mem_queue x).mp hx).1))
        | inr hbefore => exact Or.inr hbefore
  · intro hpending
    cases hpending with
    | inl hcoming => exact (coming_of_get hget hcoming).imp_right Or.inl
    | inr hbefore => exact Or.inr (Or.inr hbefore)

/-- An item that is done stays pending if it was added meanwhile. -/
theorem pending_done :
    (q.done x).Pending y ↔ q.Pending y ∧ (y = x → q.Coming y) := by
  have hdone : (q.done x).Pending y ↔ q.Coming y ∨ y ∈ q.processing.erase x := pending_iff
  rw [hdone, pending_iff, Finset.mem_erase]
  by_cases heq : y = x <;> simp +contextual [heq]

end WorkQueue
