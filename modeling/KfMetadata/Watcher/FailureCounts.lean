/-
# Failure counts of the watcher

The rate limiter counts every delay of an event, and the delay of an event doubles
with its count. Every notification delays its event, and so does every error. The
worker forgets the count of a value that is no event, which never happens, and on
no other path: an event that was handled keeps its count after it has left the
queue, and an equal event that is notified later is delayed for longer.

So counts belong to pending events exactly as long as no event leaves the queue:
whenever the worker is done with an event, the event must have been added again
meanwhile.
-/

import KfMetadata.Watcher.Delivery

namespace KfMetadata.Watcher

open Mlmd

variable {Object Other : Type} [DecidableEq Object] [DecidableEq Other]

/-- Only pending items have a failure count, so that any other item would be given
the base delay. -/
structure CountsCurrent (s : State Object Other) : Prop where
  pending : ∀ item, 0 < s.queue.failures item → s.queue.Pending item
  base_delay : ∀ base item, ¬ s.queue.Pending item → s.queue.nextDelay base item = base

/-- Every pending event has a failure count. -/
def Counted (s : State Object Other) : Prop :=
  ∀ item, s.queue.Pending item → 0 < s.queue.failures item

/-- If the worker is done with an event, the event is delayed or to be processed
again. -/
def ComesAgain (s : State Object Other) (action : Action Object Other) : Prop :=
  ∀ result e, action = .work result → s.worker = .finishing (.event e) →
    s.queue.Coming (.event e)

variable {s t : State Object Other} {action : Action Object Other}

theorem countsCurrent_iff :
    CountsCurrent s ↔ ∀ item, 0 < s.queue.failures item → s.queue.Pending item := by
  apply Iff.intro CountsCurrent.pending
  intro hpending
  apply CountsCurrent.mk hpending
  intro base item hgone
  have hzero : s.queue.failures item = 0 :=
    Nat.eq_zero_of_not_pos fun hcount => hgone (hpending item hcount)
  simp [WorkQueue.nextDelay, hzero]

/-! ## What a step does to pending items and to counts -/

/-- A step enqueues an event and counts it, or changes neither what is pending nor
what is counted, or is done with an event. -/
inductive Change (s : State Object Other) (action : Action Object Other)
    (t : State Object Other) : Prop
  | enqueued (e : Event Object)
      (hpending : ∀ item, t.queue.Pending item ↔ s.queue.Pending item ∨ item = .event e)
      (hfailures : t.queue.failures = Function.update s.queue.failures (.event e)
        (s.queue.failures (.event e) + 1))
  | kept (hpending : ∀ item, t.queue.Pending item ↔ s.queue.Pending item)
      (hfailures : t.queue.failures = s.queue.failures)
  | finished (result : Except GoError Unit) (e : Event Object)
      (haction : action = .work result) (hworker : s.worker = .finishing (.event e))
      (hpending : ∀ item, t.queue.Pending item ↔
        s.queue.Pending item ∧ (item = .event e → s.queue.Coming item))
      (hfailures : t.queue.failures = s.queue.failures)

theorem Change.of_enqueue (hopen : s.queue.shuttingDown = false) (e : Event Object)
    (hqueue : t.queue = (s.enqueue e).queue) : Change s action t := by
  apply Change.enqueued e
  · intro item
    rw [hqueue]
    exact WorkQueue.pending_addRateLimited hopen
  · rw [hqueue]
    rfl

theorem Change.of_same (hqueue : t.queue = s.queue) : Change s action t :=
  .kept (fun item => by rw [hqueue]) (by rw [hqueue])

theorem Tracked.change_work (htracked : Tracked s) (hopen : s.queue.shuttingDown = false)
    {result : Except GoError Unit} (hwork : s.processNextWorkItem result = some t) :
    Change s (.work result) t := by
  have hevent : ∀ item, s.worker.item = some item → ∃ e, item = .event e := by
    intro item hitem
    obtain ⟨e, he, -⟩ := htracked.known item (Or.inr ((htracked.taken item).mpr hitem))
    exact ⟨e, he⟩
  unfold State.processNextWorkItem at hwork
  split at hwork
  next => exact absurd hwork (by simp)
  next hworker =>
    split at hwork
    next item queue hget =>
      obtain rfl := Option.some.inj hwork
      obtain ⟨-, -, -, hfailures, -⟩ := WorkQueue.get_eq_some hget
      exact .kept (fun _ => WorkQueue.pending_get hget) hfailures
    next =>
      split at hwork
      next => exact Option.some.inj hwork ▸ .of_same rfl
      next => exact absurd hwork (by simp)
  next obj hworker =>
    obtain ⟨e, he⟩ := hevent (.other obj) (by simp [hworker, Worker.item])
    exact absurd he (by simp)
  next e hworker =>
    split at hwork
    next call hcall => exact Option.some.inj hwork ▸ .of_same rfl
    next => exact Option.some.inj hwork ▸ .of_same rfl
  next e call hworker => exact Option.some.inj hwork ▸ .of_same rfl
  next e err hworker => exact Option.some.inj hwork ▸ .of_enqueue hopen e rfl
  next item hworker =>
    obtain rfl := Option.some.inj hwork
    obtain ⟨e, rfl⟩ := hevent item (by simp [hworker, Worker.item])
    exact .finished result e rfl hworker (fun _ => WorkQueue.pending_done) rfl

theorem Tracked.change (htracked : Tracked s) (hopen : s.queue.shuttingDown = false)
    (hstep : s.step action = some t) (hgoes : action ≠ .shutDown) : Change s action t := by
  cases action with
  | onAdd obj => exact Option.some.inj hstep ▸ .of_enqueue hopen _ rfl
  | onUpdate oldObj newObj => exact Option.some.inj hstep ▸ .of_enqueue hopen _ rfl
  | onDelete obj => exact Option.some.inj hstep ▸ .of_enqueue hopen _ rfl
  | elapse item =>
      obtain ⟨hitem, ht⟩ := Option.ite_none_right_eq_some.mp hstep
      obtain rfl := Option.some.inj ht
      exact .kept (fun _ => WorkQueue.pending_elapse hopen hitem)
        (WorkQueue.elapse_failures _ _)
  | merge item =>
      obtain ⟨hitem, ht⟩ := Option.ite_none_right_eq_some.mp hstep
      obtain rfl := Option.some.inj ht
      exact .kept (fun _ => WorkQueue.pending_merge hitem) rfl
  | run =>
      simp only [State.step] at hstep
      split at hstep
      next => exact Option.some.inj hstep ▸ .of_same rfl
      next => exact absurd hstep (by simp)
  | work result => exact htracked.change_work hopen hstep
  | shutDown => exact absurd rfl hgoes

/-- Only shutting down shuts the queue down. -/
theorem shuttingDown_step (hstep : s.step action = some t) (hgoes : action ≠ .shutDown) :
    t.queue.shuttingDown = s.queue.shuttingDown := by
  cases action with
  | onAdd obj => exact Option.some.inj hstep ▸ rfl
  | onUpdate oldObj newObj => exact Option.some.inj hstep ▸ rfl
  | onDelete obj => exact Option.some.inj hstep ▸ rfl
  | elapse item =>
      obtain ⟨-, ht⟩ := Option.ite_none_right_eq_some.mp hstep
      exact Option.some.inj ht ▸ WorkQueue.elapse_shuttingDown _ _
  | merge item =>
      obtain ⟨-, ht⟩ := Option.ite_none_right_eq_some.mp hstep
      exact Option.some.inj ht ▸ rfl
  | run =>
      simp only [State.step] at hstep
      split at hstep
      next => exact Option.some.inj hstep ▸ rfl
      next => exact absurd hstep (by simp)
  | work result =>
      simp only [State.step, State.processNextWorkItem] at hstep
      split at hstep
      next => exact absurd hstep (by simp)
      next =>
        split at hstep
        next hget => exact Option.some.inj hstep ▸ (WorkQueue.get_eq_some hget).2.2.2.2.1
        next =>
          split at hstep
          next => exact Option.some.inj hstep ▸ rfl
          next => exact absurd hstep (by simp)
      next => exact Option.some.inj hstep ▸ rfl
      next => split at hstep <;> exact Option.some.inj hstep ▸ rfl
      next => exact Option.some.inj hstep ▸ rfl
      next => exact Option.some.inj hstep ▸ rfl
      next => exact Option.some.inj hstep ▸ rfl
  | shutDown => exact absurd rfl hgoes

theorem Counted.step (hcounted : Counted s) (hchange : Change s action t) : Counted t := by
  intro item hitem
  cases hchange with
  | enqueued e hpending hfailures =>
      rw [hfailures]
      by_cases heq : item = .event e
      · simp [heq]
      · rw [Function.update_of_ne heq]
        exact hcounted item (((hpending item).mp hitem).resolve_right heq)
  | kept hpending hfailures => exact hfailures ▸ hcounted item ((hpending item).mp hitem)
  | finished result e haction hworker hpending hfailures =>
      exact hfailures ▸ hcounted item ((hpending item).mp hitem).1

theorem CountsCurrent.step (hcurrent : CountsCurrent s) (hchange : Change s action t)
    (hagain : ComesAgain s action) : CountsCurrent t := by
  apply countsCurrent_iff.mpr
  intro item hcount
  cases hchange with
  | enqueued e hpending hfailures =>
      apply (hpending item).mpr
      by_cases heq : item = .event e
      · exact Or.inr heq
      · rw [hfailures, Function.update_of_ne heq] at hcount
        exact Or.inl (hcurrent.pending item hcount)
  | kept hpending hfailures =>
      exact (hpending item).mpr (hcurrent.pending item (hfailures ▸ hcount))
  | finished result e haction hworker hpending hfailures =>
      apply (hpending item).mpr
      apply And.intro (hcurrent.pending item (hfailures ▸ hcount))
      intro heq
      exact heq ▸ hagain result e haction hworker

/-- An event that leaves the queue leaves its count behind. -/
theorem CountsCurrent.coming {e : Event Object} (htracked : Tracked s) (hcounted : Counted s)
    (hworker : s.worker = .finishing (.event e))
    (hcurrent : CountsCurrent { s with queue := s.queue.done (.event e), worker := .idle }) :
    s.queue.Coming (.event e) := by
  have htaken : s.queue.Pending (.event e) :=
    WorkQueue.pending_iff.mpr
      (Or.inr ((htracked.taken _).mpr (by simp [hworker, Worker.item])))
  have hstill : (s.queue.done (.event e)).Pending (.event e) :=
    hcurrent.pending (.event e) (hcounted _ htaken)
  exact (WorkQueue.pending_done.mp hstill).2 rfl

/-! ## Runs -/

/-- What holds before the queue is shut down. -/
structure Counting (s : State Object Other) : Prop where
  opened : s.queue.shuttingDown = false
  tracked : Tracked s
  counted : Counted s

theorem counting_new : Counting (State.new : State Object Other) where
  opened := rfl
  tracked := tracked_new
  counted item := by simp [State.new, WorkQueue.empty, WorkQueue.Pending]

theorem Counting.step (hcounting : Counting s) (hstep : s.step action = some t)
    (hgoes : action ≠ .shutDown) : Counting t where
  opened := (shuttingDown_step hstep hgoes).trans hcounting.opened
  tracked := hcounting.tracked.step hstep
  counted := hcounting.counted.step (hcounting.tracked.change hcounting.opened hstep hgoes)

theorem State.run_concat {actions : List (Action Object Other)}
    (hrun : s.run (actions ++ [action]) = some t) :
    ∃ u, s.run actions = some u ∧ u.step action = some t := by
  rw [State.run_append] at hrun
  obtain ⟨u, hfirst, hlast⟩ := Option.bind_eq_some_iff.mp hrun
  obtain ⟨v, hstep, hv⟩ := Option.bind_eq_some_iff.mp hlast
  exact ⟨u, hfirst, Option.some.inj hv ▸ hstep⟩

theorem counting_run {actions : List (Action Object Other)} (hgoes : .shutDown ∉ actions)
    (hrun : State.new.run actions = some s) : Counting s := by
  induction actions using List.reverseRecOn generalizing s with
  | nil => exact Option.some.inj hrun ▸ counting_new
  | append_singleton first action ih =>
      obtain ⟨u, hfirst, hstep⟩ := State.run_concat hrun
      simp only [List.mem_append, List.mem_singleton, not_or] at hgoes
      exact (ih hgoes.1 hfirst).step hstep fun h => hgoes.2 h.symm

/-- As long as the queue is not shut down, failure counts belong to pending events in
every state of a run if and only if no event leaves the queue in it: whenever the
worker is done with an event, the event has been added again. -/
theorem counts_current_iff {actions : List (Action Object Other)}
    (hgoes : .shutDown ∉ actions) :
    (∀ first s, first <+: actions → State.new.run first = some s → CountsCurrent s) ↔
      ∀ first action s, first ++ [action] <+: actions → State.new.run first = some s →
        ComesAgain s action := by
  have hwithout : ∀ first, first <+: actions → .shutDown ∉ first :=
    fun first hfirst hmem => hgoes (hfirst.mem hmem)
  apply Iff.intro
  · intro hcurrent first action s hfirst hrun result e haction hworker
    have hcounting :=
      counting_run (hwithout first ((List.prefix_append _ _).trans hfirst)) hrun
    apply CountsCurrent.coming hcounting.tracked hcounting.counted hworker
    apply hcurrent _ _ hfirst
    simp [State.run_append, hrun, State.run, haction, State.step, State.processNextWorkItem,
      hworker]
  · intro hagain first
    induction first using List.reverseRecOn with
    | nil =>
        intro s _ hrun
        obtain rfl := Option.some.inj hrun
        apply countsCurrent_iff.mpr
        simp [State.new, WorkQueue.empty]
    | append_singleton first action ih =>
        intro t hfirst hrun
        obtain ⟨s, hbefore, hstep⟩ := State.run_concat hrun
        have hlead : first <+: actions := (List.prefix_append _ _).trans hfirst
        have hcounting := counting_run (hwithout first hlead) hbefore
        have haction : action ≠ .shutDown := by
          intro heq
          exact hwithout _ hfirst (by simp [heq])
        exact (ih s hlead hbefore).step
          (hcounting.tracked.change hcounting.opened hstep haction)
          (hagain first action s hfirst hbefore)

/-- The worker is about to be done with an item. -/
def Worker.isFinishing : Worker Object Other → Bool
  | .finishing _ => true
  | _ => false

/-- One event, handled with success, and notified again in the meantime. -/
def handledAgain : List (Action Nat Empty) :=
  [.onAdd 1, .elapse (.event ⟨.addEvent, none, 1⟩), .run, .work (.ok ()), .work (.ok ()),
    .onAdd 1, .work (.ok ()), .work (.ok ())]

/-- When the worker is done with the event, it has been added again, so its count stays with
a pending event. -/
theorem counts_current_handledAgain : ∃ s, State.new.run handledAgain = some s ∧
    s.queue.failures (.event ⟨.addEvent, none, 1⟩) = 2 ∧ s.worker = .idle ∧ CountsCurrent s := by
  have hagain : ∀ first action s, first ++ [action] <+: handledAgain →
      State.new.run first = some s → ComesAgain s action := by
    intro first action s hfirst hrun result e haction hworker
    have hlead : first = handledAgain.take first.length :=
      List.prefix_iff_eq_take.mp ((List.prefix_append _ _).trans hfirst)
    have hlength : first.length ≤ 7 := by
      have hall : handledAgain.length = 8 := rfl
      have hle := hfirst.length_le
      rw [List.length_append, List.length_singleton, hall] at hle
      omega
    by_cases hlast : first.length = 7
    · have hreached : ∃ s, State.new.run (handledAgain.take 7) = some s ∧
          s.queue.waiting = [.event ⟨.addEvent, none, 1⟩] ∧
          s.worker = .finishing (.event ⟨.addEvent, none, 1⟩) := ⟨_, rfl, rfl, rfl⟩
      obtain ⟨t, ht, hwaiting, hfinishing⟩ := hreached
      rw [hlead, hlast, ht] at hrun
      obtain rfl := Option.some.inj hrun
      obtain rfl := Item.event.inj (Worker.finishing.inj (hfinishing.symm.trans hworker))
      exact Or.inl (hwaiting ▸ List.mem_cons_self)
    · -- Before that the worker is not done with anything.
      have hnot : ∀ n < 7, (State.new.run (handledAgain.take n)).any
          (fun s => s.worker.isFinishing) = false := by decide +kernel
      have hearly := hnot first.length (by omega)
      rw [← hlead, hrun] at hearly
      simp [hworker, Worker.isFinishing] at hearly
  have hreached : ∃ s, State.new.run handledAgain = some s ∧
      s.queue.failures (.event ⟨.addEvent, none, 1⟩) = 2 ∧ s.worker = .idle := ⟨_, rfl, rfl, rfl⟩
  obtain ⟨s, hrun, hcount, hidle⟩ := hreached
  exact ⟨s, hrun, hcount, hidle,
    (counts_current_iff (by simp [handledAgain])).mpr hagain _ s List.prefix_rfl hrun⟩

/-- One event, notified once and handled with success. -/
def handledOnce : List (Action Nat Empty) :=
  [.onAdd 1, .elapse (.event ⟨.addEvent, none, 1⟩), .run, .work (.ok ()), .work (.ok ()),
    .work (.ok ()), .work (.ok ())]

/-- Once it is handled, the event is gone and its count is still there. -/
theorem count_outlives_event :
    ∃ s, State.new.run handledOnce = some s ∧ ¬ CountsCurrent s := by
  have hreached : ∃ s, State.new.run handledOnce = some s ∧
      s.queue.failures (.event ⟨.addEvent, none, 1⟩) = 1 ∧ s.queue.waiting = [] ∧
        s.queue.queue = [] ∧ s.queue.processing = ∅ :=
    ⟨_, rfl, rfl, rfl, rfl, rfl⟩
  obtain ⟨s, hrun, hcount, hwaiting, hqueue, hprocessing⟩ := hreached
  apply Exists.intro s
  apply And.intro hrun
  intro hcurrent
  have hpending := hcurrent.pending (.event ⟨.addEvent, none, 1⟩) (by simp [hcount])
  simp [WorkQueue.Pending, hwaiting, hqueue, hprocessing] at hpending

end KfMetadata.Watcher
