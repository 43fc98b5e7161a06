/-
# The watcher loses no event

An event may be notified again, by the informer or after an error, while an equal
one is delayed, queued or being handled. An event that is added while it is being
handled is marked and queued again when it is done, and the handler call that is
running then started before the addition. Hence an event that no call has served
since it was last enqueued is always on its way to the handler.

The invariant says where such an event is. Either it will be handed out, or the
worker has it: taken and not yet given to the handler, or in a call that started
after the last enqueueing and has not returned, or in one that has failed and is
about to be queued again.
-/

import KfMetadata.Watcher.Worker

namespace KfMetadata.Watcher

open Mlmd

variable {Object Other : Type}

/-! ## Histories -/

/-- What has happened since an event was last enqueued. -/
def since [DecidableEq Object] (e : Event Object) (history : List (Note Object)) :
    Option (List (Note Object)) :=
  history.foldl
    (fun found note =>
      match note with
      | .enqueued e' => if e' = e then some [] else found.map (· ++ [note])
      | _ => found.map (· ++ [note]))
    none

/-- A call for the event has started and then returned nil. -/
def Served (e : Event Object) (notes : List (Note Object)) : Prop :=
  List.Sublist [.called e, .returned e (.ok ())] notes

/-- The event was enqueued, and no handler call that started after it was last
enqueued has returned nil. -/
def Owed [DecidableEq Object] (e : Event Object) (history : List (Note Object)) : Prop :=
  ∃ after, since e history = some after ∧ ¬ Served e after

/-- The handler calls that have started and not returned. -/
def running [DecidableEq Object] (history : List (Note Object)) : List (Event Object) :=
  history.foldl
    (fun calls note =>
      match note with
      | .enqueued _ => calls
      | .called e => e :: calls
      | .returned e _ => calls.erase e)
    []

section

variable [DecidableEq Object] (e e' : Event Object) (history : List (Note Object))
  (result : Except GoError Unit)

@[simp]
theorem since_enqueued : since e (history ++ [.enqueued e]) = some [] := by
  simp [since, List.foldl_append]

theorem since_enqueued_of_ne (hne : e' ≠ e) :
    since e (history ++ [.enqueued e']) = (since e history).map (· ++ [.enqueued e']) := by
  simp [since, List.foldl_append, hne]

@[simp]
theorem since_called :
    since e (history ++ [.called e']) = (since e history).map (· ++ [.called e']) := by
  simp [since, List.foldl_append]

@[simp]
theorem since_returned :
    since e (history ++ [.returned e' result]) =
      (since e history).map (· ++ [.returned e' result]) := by
  simp [since, List.foldl_append]

@[simp]
theorem running_enqueued : running (history ++ [.enqueued e]) = running history := by
  simp [running, List.foldl_append]

@[simp]
theorem running_called : running (history ++ [.called e]) = e :: running history := by
  simp [running, List.foldl_append]

@[simp]
theorem running_returned :
    running (history ++ [.returned e result]) = (running history).erase e := by
  simp [running, List.foldl_append]

end

/-- An event that is not served later was not served before. -/
theorem Served.append {e : Event Object} {notes : List (Note Object)} (hserved : Served e notes)
    (more : List (Note Object)) : Served e (notes ++ more) :=
  List.Sublist.trans hserved (List.sublist_append_left notes more)

/-- A call that started after the event was enqueued serves it by returning nil. -/
theorem served_of_returned {e : Event Object} {notes : List (Note Object)}
    (hcalled : .called e ∈ notes) : Served e (notes ++ [.returned e (.ok ())]) :=
  List.Sublist.append (List.singleton_sublist.mpr hcalled) (List.Sublist.refl _)

/-! ## Where an event is -/

/-- The handler calls that the worker is in. -/
def Worker.calls : Worker Object Other → List (Event Object)
  | .calling e _ => [e]
  | _ => []

/-- The worker will call the handler for the event, or it is in a call that has
started among these notes and has not succeeded. -/
def Worker.Holds (worker : Worker Object Other) (e : Event Object)
    (notes : List (Note Object)) : Prop :=
  match worker with
  | .got item => item = .event e
  | .calling e' _ => e' = e ∧ .called e ∈ notes
  | .failed e' _ => e' = e ∧ .called e ∈ notes
  | _ => False

theorem Worker.Holds.append {worker : Worker Object Other} {e : Event Object}
    {notes : List (Note Object)} (hholds : worker.Holds e notes) (more : List (Note Object)) :
    worker.Holds e (notes ++ more) := by
  cases worker with
  | absent => exact hholds
  | idle => exact hholds
  | got item => exact hholds
  | calling e' call => exact ⟨hholds.1, List.mem_append_left more hholds.2⟩
  | failed e' err => exact ⟨hholds.1, List.mem_append_left more hholds.2⟩
  | finishing item => exact hholds

/-- What the worker holds is being processed. -/
theorem Worker.Holds.item {worker : Worker Object Other} {e : Event Object}
    {notes : List (Note Object)}
    (hholds : worker.Holds e notes) :
    worker.item = some (.event e) := by
  cases worker with
  | absent => exact hholds.elim
  | idle => exact hholds.elim
  | got item => exact congrArg some hholds
  | calling e' call => exact congrArg (some ∘ Item.event) hholds.1
  | failed e' err => exact congrArg (some ∘ Item.event) hholds.1
  | finishing item => exact hholds.elim

variable [DecidableEq Object] [DecidableEq Other]

/-- What is known of a watcher at any time. -/
structure Tracked (s : State Object Other) : Prop where
  /-- What the worker has taken is what is being processed. -/
  taken : ∀ item, item ∈ s.queue.processing ↔ s.worker.item = some item
  /-- Only events that the handler is called for are in the watcher. -/
  known : ∀ item, s.queue.Coming item ∨ item ∈ s.queue.processing →
    ∃ e, item = .event e ∧ (handlerCall e).isSome
  calls : running s.history = s.worker.calls
  owed : s.queue.shuttingDown = false → ∀ e notes, since e s.history = some notes →
    ¬ Served e notes → s.queue.Coming (.event e) ∨ s.worker.Holds e notes

variable {s t : State Object Other} {e : Event Object}

theorem Tracked.pending (htracked : Tracked s) (hopen : s.queue.shuttingDown = false)
    (howed : Owed e s.history) : s.queue.Pending (.event e) := by
  obtain ⟨notes, hsince, hunserved⟩ := howed
  apply WorkQueue.pending_iff.mpr
  cases htracked.owed hopen e notes hsince hunserved with
  | inl hcoming => exact Or.inl hcoming
  | inr hholds => exact Or.inr ((htracked.taken _).mpr hholds.item)

theorem Tracked.running_le (htracked : Tracked s) : (running s.history).length ≤ 1 := by
  rw [htracked.calls]
  cases s.worker <;> simp [Worker.calls]

/-! ## Steps -/

theorem tracked_new : Tracked (State.new : State Object Other) where
  taken item := by simp [State.new, WorkQueue.empty, Worker.item]
  known item := by simp [State.new, WorkQueue.empty, WorkQueue.Coming]
  calls := rfl
  owed _ e notes hsince := by simp [State.new, since] at hsince

theorem Tracked.enqueue (htracked : Tracked s) (hknown : (handlerCall e).isSome) :
    Tracked (s.enqueue e) where
  taken := htracked.taken
  known item := by
    intro hitem
    cases hitem with
    | inl hcoming =>
        cases WorkQueue.coming_of_addRateLimited hcoming with
        | inl hold => exact htracked.known item (Or.inl hold)
        | inr hnew => exact ⟨e, hnew, hknown⟩
    | inr hprocessing => exact htracked.known item (Or.inr hprocessing)
  calls := by simpa [State.enqueue] using htracked.calls
  owed := by
    intro hopen f notes hsince hunserved
    have hcoming : ∀ item, (s.enqueue e).queue.Coming item ↔
        s.queue.Coming item ∨ item = .event e :=
      fun _ => WorkQueue.coming_addRateLimited hopen
    by_cases heq : e = f
    · subst heq
      exact Or.inl ((hcoming _).mpr (Or.inr rfl))
    · rw [State.enqueue, since_enqueued_of_ne _ _ _ heq] at hsince
      obtain ⟨before, hbefore, rfl⟩ := Option.map_eq_some_iff.mp hsince
      have hstill := htracked.owed hopen f before hbefore fun h => hunserved (h.append _)
      exact hstill.imp (fun h => (hcoming _).mpr (Or.inl h)) fun h => h.append _

/-- A change of the queue that neither takes items nor finishes them. -/
theorem Tracked.requeue (htracked : Tracked s) {queue : WorkQueue (Item Object Other)}
    (hprocessing : queue.processing = s.queue.processing)
    (hold : ∀ item, queue.Coming item → s.queue.Coming item)
    (hnew : queue.shuttingDown = false → s.queue.shuttingDown = false ∧
      ∀ item, s.queue.Coming item → queue.Coming item) :
    Tracked { s with queue := queue } where
  taken item := by
    show item ∈ queue.processing ↔ _
    rw [hprocessing]
    exact htracked.taken item
  known item := by
    show queue.Coming item ∨ item ∈ queue.processing → _
    rw [hprocessing]
    exact fun h => htracked.known item (h.imp_left (hold item))
  calls := htracked.calls
  owed hopen e notes hsince hunserved :=
    (htracked.owed (hnew hopen).1 e notes hsince hunserved).imp_left ((hnew hopen).2 _)

theorem Tracked.elapse (htracked : Tracked s) {item : Item Object Other}
    (hitem : item ∈ s.queue.waiting) : Tracked { s with queue := s.queue.elapse item } := by
  apply htracked.requeue (WorkQueue.elapse_processing _ _)
  · exact fun _ => WorkQueue.coming_of_elapse hitem
  · intro hopen
    rw [WorkQueue.elapse_shuttingDown] at hopen
    exact ⟨hopen, fun _ => WorkQueue.coming_elapse hopen⟩

theorem Tracked.merge (htracked : Tracked s) {item : Item Object Other}
    (hitem : 2 ≤ s.queue.waiting.count item) :
    Tracked { s with queue := s.queue.merge item } := by
  have hprocessing : (s.queue.merge item).processing = s.queue.processing := rfl
  apply htracked.requeue hprocessing
  · exact fun _ => (WorkQueue.coming_merge hitem).mp
  · exact fun hopen => ⟨hopen, fun _ => (WorkQueue.coming_merge hitem).mpr⟩

theorem Tracked.shutDown (htracked : Tracked s) :
    Tracked { s with queue := s.queue.shutDown } := by
  have hprocessing : s.queue.shutDown.processing = s.queue.processing := rfl
  apply htracked.requeue hprocessing
  · exact fun _ => id
  · exact fun hopen => absurd hopen (by simp [WorkQueue.shutDown])

theorem Tracked.start (htracked : Tracked s) (hworker : s.worker = .absent) :
    Tracked { s with worker := .idle } where
  taken item := by simpa [hworker, Worker.item] using htracked.taken item
  known := htracked.known
  calls := by simpa [hworker, Worker.calls] using htracked.calls
  owed := by simpa [hworker, Worker.Holds] using htracked.owed

/-- The item that the worker takes is not lost while it has it. -/
theorem Tracked.take (htracked : Tracked s) (hworker : s.worker = .idle)
    {item : Item Object Other} {queue : WorkQueue (Item Object Other)}
    (hget : s.queue.get = some (item, queue)) :
    Tracked { s with queue := queue, worker := .got item } where
  taken other := by
    obtain ⟨-, -, hprocessing, -⟩ := WorkQueue.get_eq_some hget
    have hnone := htracked.taken other
    simp only [hworker, Worker.item] at hnone
    simp [hprocessing, hnone, Worker.item, eq_comm]
  known other := by
    obtain ⟨-, -, hprocessing, -, -, hqueued⟩ := WorkQueue.get_eq_some hget
    intro hother
    apply htracked.known other
    cases hother with
    | inl hcoming => exact Or.inl (WorkQueue.coming_get hget hcoming)
    | inr htaken =>
        rw [hprocessing] at htaken
        cases Finset.mem_insert.mp htaken with
        | inl heq => exact Or.inl (Or.inr ((s.queue.mem_queue _).mp (heq ▸ hqueued)).1)
        | inr hbefore => exact Or.inr hbefore
  calls := by simpa [hworker, Worker.calls] using htracked.calls
  owed := by
    obtain ⟨-, -, -, -, hdown, -⟩ := WorkQueue.get_eq_some hget
    intro hopen e notes hsince hunserved
    cases htracked.owed (hdown.symm.trans hopen) e notes hsince hunserved with
    | inl hcoming =>
        exact (WorkQueue.coming_of_get hget hcoming).imp_right fun h => h.symm
    | inr hholds => simp [hworker, Worker.Holds] at hholds

/-- A call that starts comes after the last time its event was enqueued. -/
theorem Tracked.call (htracked : Tracked s) (hworker : s.worker = .got (.event e))
    (call : HandlerCall Object) :
    Tracked { s with worker := .calling e call, history := s.history ++ [.called e] } where
  taken item := by simpa [hworker, Worker.item] using htracked.taken item
  known := htracked.known
  calls := by simp [htracked.calls, hworker, Worker.calls]
  owed := by
    intro hopen f notes hsince hunserved
    obtain ⟨before, hbefore, rfl⟩ := Option.map_eq_some_iff.mp ((since_called f e _) ▸ hsince)
    have hstill := htracked.owed hopen f before hbefore fun h => hunserved (h.append _)
    apply hstill.imp_right
    intro hholds
    have heq : e = f := by simpa [hworker, Worker.Holds] using hholds
    exact ⟨heq, by simp [heq]⟩

/-- A call that succeeds serves its event, unless the event was enqueued meanwhile and
will come again. -/
theorem Tracked.succeed (htracked : Tracked s) {call : HandlerCall Object}
    (hworker : s.worker = .calling e call) :
    Tracked { s with
      worker := .finishing (.event e), history := s.history ++ [.returned e (.ok ())] } where
  taken item := by simpa [hworker, Worker.item] using htracked.taken item
  known := htracked.known
  calls := by simp [htracked.calls, hworker, Worker.calls]
  owed := by
    intro hopen f notes hsince hunserved
    obtain ⟨before, hbefore, rfl⟩ :=
      Option.map_eq_some_iff.mp ((since_returned f e _ _) ▸ hsince)
    have hstill := htracked.owed hopen f before hbefore fun h => hunserved (h.append _)
    apply Or.inl
    cases hstill with
    | inl hcoming => exact hcoming
    | inr hholds =>
        simp only [hworker, Worker.Holds] at hholds
        obtain ⟨rfl, hcalled⟩ := hholds
        exact absurd (served_of_returned hcalled) hunserved

theorem Tracked.fail (htracked : Tracked s) {call : HandlerCall Object}
    (hworker : s.worker = .calling e call) (err : GoError) :
    Tracked { s with
      worker := .failed e err, history := s.history ++ [.returned e (.error err)] } where
  taken item := by simpa [hworker, Worker.item] using htracked.taken item
  known := htracked.known
  calls := by simp [htracked.calls, hworker, Worker.calls]
  owed := by
    intro hopen f notes hsince hunserved
    obtain ⟨before, hbefore, rfl⟩ :=
      Option.map_eq_some_iff.mp ((since_returned f e _ _) ▸ hsince)
    have hstill := htracked.owed hopen f before hbefore fun h => hunserved (h.append _)
    apply hstill.imp_right
    intro hholds
    have hheld : e = f ∧ .called f ∈ before := by
      simpa [hworker, Worker.Holds] using hholds
    exact ⟨hheld.1, List.mem_append_left _ hheld.2⟩

/-- An event whose call failed is enqueued before the worker gives it up. -/
theorem Tracked.retry (htracked : Tracked s) {err : GoError}
    (hworker : s.worker = .failed e err) :
    Tracked { s.enqueue e with worker := .finishing (.event e) } := by
  have htaken : .event e ∈ s.queue.processing :=
    (htracked.taken _).mpr (by simp [hworker, Worker.item])
  obtain ⟨f, hf, hknown⟩ := htracked.known _ (Or.inr htaken)
  obtain rfl := Item.event.inj hf
  have henqueued := htracked.enqueue hknown
  exact
    { taken := by
        intro item
        simpa [hworker, Worker.item, State.enqueue] using henqueued.taken item
      known := henqueued.known
      calls := by simpa [hworker, Worker.calls, State.enqueue] using henqueued.calls
      owed := by
        intro hopen g notes hsince hunserved
        have hcoming : (s.enqueue e).queue.Coming (.event e) :=
          (WorkQueue.coming_addRateLimited (q := s.queue) hopen).mpr (Or.inr rfl)
        apply Or.inl
        cases henqueued.owed hopen g notes hsince hunserved with
        | inl hcomes => exact hcomes
        | inr hholds =>
            have hworker' : (s.enqueue e).worker = .failed e err := hworker
            rw [hworker'] at hholds
            exact hholds.1 ▸ hcoming }

theorem Tracked.finish (htracked : Tracked s) {item : Item Object Other}
    (hworker : s.worker = .finishing item) :
    Tracked { s with queue := s.queue.done item, worker := .idle } where
  taken other := by
    have hitem := htracked.taken other
    simp only [hworker, Worker.item, Option.some.injEq] at hitem
    show other ∈ s.queue.processing.erase item ↔ none = some other
    simp [hitem, eq_comm]
  known other := by
    show s.queue.Coming other ∨ other ∈ s.queue.processing.erase item → _
    exact fun h => htracked.known other (h.imp_right Finset.mem_of_mem_erase)
  calls := by simpa [hworker, Worker.calls] using htracked.calls
  owed := by
    intro hopen e notes hsince hunserved
    cases htracked.owed hopen e notes hsince hunserved with
    | inl hcoming => exact Or.inl hcoming
    | inr hholds => simp [hworker, Worker.Holds] at hholds

theorem Tracked.work (htracked : Tracked s) {result : Except GoError Unit}
    (hwork : s.processNextWorkItem result = some t) : Tracked t := by
  have hknown : ∀ item, s.worker = .got item → ∃ e call, item = .event e ∧
      handlerCall e = some call := by
    intro item hworker
    obtain ⟨e, he, hsome⟩ := htracked.known item
      (Or.inr ((htracked.taken item).mpr (by simp [hworker, Worker.item])))
    obtain ⟨call, hcall⟩ := Option.isSome_iff_exists.mp hsome
    exact ⟨e, call, he, hcall⟩
  unfold State.processNextWorkItem at hwork
  split at hwork
  next => exact absurd hwork (by simp)
  next hworker =>
    split at hwork
    next item queue hget =>
      obtain rfl := Option.some.inj hwork
      exact htracked.take hworker hget
    next =>
      split at hwork
      next => exact Option.some.inj hwork ▸ htracked
      next => exact absurd hwork (by simp)
  next obj hworker =>
    obtain ⟨e, call, he, -⟩ := hknown _ hworker
    exact absurd he (by simp)
  next e hworker =>
    obtain ⟨f, call, hf, hcall⟩ := hknown _ hworker
    obtain rfl := Item.event.inj hf
    rw [hcall] at hwork
    exact Option.some.inj hwork ▸ htracked.call hworker call
  next e call hworker =>
    cases result with
    | ok value => exact Option.some.inj hwork ▸ htracked.succeed hworker
    | error err => exact Option.some.inj hwork ▸ htracked.fail hworker err
  next e err hworker => exact Option.some.inj hwork ▸ htracked.retry hworker
  next item hworker => exact Option.some.inj hwork ▸ htracked.finish hworker

/-- Every step keeps track of every event. -/
theorem Tracked.step (htracked : Tracked s) {action : Action Object Other}
    (hstep : s.step action = some t) : Tracked t := by
  cases action with
  | onAdd obj => exact Option.some.inj hstep ▸ htracked.enqueue rfl
  | onUpdate oldObj newObj => exact Option.some.inj hstep ▸ htracked.enqueue rfl
  | onDelete obj => exact Option.some.inj hstep ▸ htracked.enqueue rfl
  | elapse item =>
      obtain ⟨hitem, ht⟩ := Option.ite_none_right_eq_some.mp hstep
      exact Option.some.inj ht ▸ htracked.elapse hitem
  | merge item =>
      obtain ⟨hitem, ht⟩ := Option.ite_none_right_eq_some.mp hstep
      exact Option.some.inj ht ▸ htracked.merge hitem
  | run =>
      simp only [State.step] at hstep
      split at hstep
      next hworker => exact Option.some.inj hstep ▸ htracked.start hworker
      next => exact absurd hstep (by simp)
  | work result => exact htracked.work hstep
  | shutDown => exact Option.some.inj hstep ▸ htracked.shutDown

theorem Tracked.run (htracked : Tracked s) {actions : List (Action Object Other)}
    (hrun : s.run actions = some t) : Tracked t := by
  induction actions generalizing s with
  | nil => exact Option.some.inj hrun ▸ htracked
  | cons action rest ih =>
      obtain ⟨u, hstep, hrest⟩ := Option.bind_eq_some_iff.mp hrun
      exact ih (htracked.step hstep) hrest

/-! ## Notifications -/

/-- The handler call that a notification asks for. -/
def Action.notifies : Action Object Other → Option (HandlerCall Object)
  | .onAdd obj => some (.onAdd obj)
  | .onUpdate oldObj newObj => some (.onUpdate (some oldObj) newObj)
  | .onDelete obj => some (.onDelete obj)
  | _ => none

/-- What has happened stays in the history. -/
theorem history_of_step {action : Action Object Other} (hstep : s.step action = some t) :
    s.history <+: t.history := by
  cases action with
  | onAdd obj => exact Option.some.inj hstep ▸ List.prefix_append _ _
  | onUpdate oldObj newObj => exact Option.some.inj hstep ▸ List.prefix_append _ _
  | onDelete obj => exact Option.some.inj hstep ▸ List.prefix_append _ _
  | elapse item =>
      obtain ⟨-, ht⟩ := Option.ite_none_right_eq_some.mp hstep
      exact Option.some.inj ht ▸ List.prefix_rfl
  | merge item =>
      obtain ⟨-, ht⟩ := Option.ite_none_right_eq_some.mp hstep
      exact Option.some.inj ht ▸ List.prefix_rfl
  | run =>
      simp only [State.step] at hstep
      split at hstep
      next => exact Option.some.inj hstep ▸ List.prefix_rfl
      next => cases hstep
  | work result =>
      simp only [State.step, State.processNextWorkItem] at hstep
      split at hstep
      next => cases hstep
      next =>
        split at hstep
        next => exact Option.some.inj hstep ▸ List.prefix_rfl
        next =>
          obtain ⟨-, ht⟩ := Option.ite_none_right_eq_some.mp hstep
          exact Option.some.inj ht ▸ List.prefix_rfl
      next => exact Option.some.inj hstep ▸ List.prefix_rfl
      next =>
        split at hstep
        next => exact Option.some.inj hstep ▸ List.prefix_append _ _
        next => exact Option.some.inj hstep ▸ List.prefix_rfl
      next => exact Option.some.inj hstep ▸ List.prefix_append _ _
      next => exact Option.some.inj hstep ▸ List.prefix_append _ _
      next => exact Option.some.inj hstep ▸ List.prefix_rfl
  | shutDown => exact Option.some.inj hstep ▸ List.prefix_rfl

theorem history_of_run {actions : List (Action Object Other)} (hrun : s.run actions = some t) :
    s.history <+: t.history := by
  induction actions generalizing s with
  | nil => exact Option.some.inj hrun ▸ List.prefix_rfl
  | cons action rest ih =>
      obtain ⟨u, hstep, hrest⟩ := Option.bind_eq_some_iff.mp hrun
      exact (history_of_step hstep).trans (ih hrest)

/-- A notification queues an event for the call with its objects. -/
theorem enqueued_of_step {action : Action Object Other} (hstep : s.step action = some t)
    {call : HandlerCall Object} (hnotifies : action.notifies = some call) :
    ∃ e, handlerCall e = some call ∧ .enqueued e ∈ t.history := by
  have hlast : ∀ e, .enqueued e ∈ (s.enqueue e).history := fun e =>
    List.mem_append_right _ List.mem_cons_self
  cases action with
  | onAdd obj =>
      obtain rfl := Option.some.inj hnotifies
      exact ⟨⟨.addEvent, none, obj⟩, rfl, Option.some.inj hstep ▸ hlast _⟩
  | onUpdate oldObj newObj =>
      obtain rfl := Option.some.inj hnotifies
      exact ⟨⟨.updateEvent, some oldObj, newObj⟩, rfl, Option.some.inj hstep ▸ hlast _⟩
  | onDelete obj =>
      obtain rfl := Option.some.inj hnotifies
      exact ⟨⟨.deleteEvent, none, obj⟩, rfl, Option.some.inj hstep ▸ hlast _⟩
  | elapse item => cases hnotifies
  | merge item => cases hnotifies
  | run => cases hnotifies
  | work result => cases hnotifies
  | shutDown => cases hnotifies

theorem enqueued_of_run {actions : List (Action Object Other)} (hrun : s.run actions = some t)
    {action : Action Object Other} (hmem : action ∈ actions) {call : HandlerCall Object}
    (hnotifies : action.notifies = some call) :
    ∃ e, handlerCall e = some call ∧ .enqueued e ∈ t.history := by
  induction actions generalizing s with
  | nil => cases hmem
  | cons first rest ih =>
      obtain ⟨u, hstep, hrest⟩ := Option.bind_eq_some_iff.mp hrun
      cases List.mem_cons.mp hmem with
      | inl hfirst =>
          subst hfirst
          obtain ⟨e, hcall, henqueued⟩ := enqueued_of_step hstep hnotifies
          exact ⟨e, hcall, (history_of_run hrest).subset henqueued⟩
      | inr hlater => exact ih hrest hlater

/-- The watcher loses no event: every notification queues an event for the handler call with
its objects, and until the queue is shut down, an event that no call has served since it was
last enqueued is delayed, queued or being processed. No two handler calls ever run at a
time. -/
theorem no_event_lost {actions : List (Action Object Other)}
    (hrun : State.new.run actions = some s) :
    (s.queue.shuttingDown = false → ∀ e, Owed e s.history → s.queue.Pending (.event e)) ∧
      (running s.history).length ≤ 1 ∧
      ∀ action ∈ actions, ∀ call, action.notifies = some call →
        ∃ e, handlerCall e = some call ∧ .enqueued e ∈ s.history := by
  have htracked := tracked_new.run hrun
  refine ⟨fun hopen _ howed => htracked.pending hopen howed, htracked.running_le, ?_⟩
  intro action hmem call hnotifies
  exact enqueued_of_run hrun hmem hnotifies

/-- An event that is notified again while its call is running comes again, although
the call succeeds. -/
theorem no_event_lost_while_called : ∃ s : State Nat Empty,
    State.new.run [.onAdd 1, .elapse (.event ⟨.addEvent, none, 1⟩), .run, .work (.ok ()),
      .work (.ok ()), .onAdd 1, .work (.ok ())] = some s ∧
    s.queue.Pending (.event ⟨.addEvent, none, 1⟩) := by
  have hreached : ∃ s : State Nat Empty,
      State.new.run [.onAdd 1, .elapse (.event ⟨.addEvent, none, 1⟩), .run, .work (.ok ()),
        .work (.ok ()), .onAdd 1, .work (.ok ())] = some s ∧ s.queue.shuttingDown = false ∧
      since ⟨.addEvent, none, 1⟩ s.history = some [.returned ⟨.addEvent, none, 1⟩ (.ok ())] :=
    ⟨_, rfl, rfl, rfl⟩
  obtain ⟨s, hrun, hopen, hsince⟩ := hreached
  have hunserved : ¬ Served (⟨.addEvent, none, 1⟩ : Event Nat)
      [.returned ⟨.addEvent, none, 1⟩ (.ok ())] :=
    fun hserved => absurd hserved.length_le (by decide)
  exact ⟨s, hrun, (no_event_lost hrun).1 hopen _ ⟨_, hsince, hunserved⟩⟩

end KfMetadata.Watcher
