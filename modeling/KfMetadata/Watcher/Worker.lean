/-
# The watcher of a resource

A watcher takes the notifications of an informer, queues an event for each, and
lets one worker handle the queued events one at a time. The worker takes an item,
calls the handler for it, adds it again with a delay when the handler returned an
error, and only then reports it as done. Notifications, delays that are over and
the worker's statements may come in any order.

Whether a handler call succeeds is decided from outside. The history of a state is
no part of the program; it records what the results are about.
-/

import KfMetadata.Library.WorkQueue
import KfMetadata.Watcher.MetaLogger

namespace KfMetadata.Watcher

open Mlmd

deriving instance DecidableEq for Event

/-- What is in the queue: events, or values that the worker does not accept. -/
inductive Item (Object Other : Type)
  | event (e : Event Object)
  | other (obj : Other)
  deriving DecidableEq

/-- A call of the handler. -/
inductive HandlerCall (Object : Type)
  | onAdd (obj : Object)
  | onUpdate (oldObj : Option Object) (newObj : Object)
  | onDelete (obj : Object)
  deriving DecidableEq

variable {Object Other : Type} [DecidableEq Object] [DecidableEq Other]

/-- The handler call for an event; there is none for an unknown kind of event. -/
def handlerCall (e : Event Object) : Option (HandlerCall Object) :=
  match e.kind with
  | .addEvent => some (.onAdd e.newVal)
  | .updateEvent => some (.onUpdate e.oldVal e.newVal)
  | .deleteEvent => some (.onDelete e.newVal)
  | .unknown => none

/-! ## States -/

/-- Where the worker is in `processNextWorkItem`. -/
inductive Worker (Object Other : Type)
  | absent
  /-- About to take the next item. -/
  | idle
  | got (item : Item Object Other)
  /-- The handler call for an event is running. -/
  | calling (e : Event Object) (call : HandlerCall Object)
  /-- The handler returned an error. -/
  | failed (e : Event Object) (err : GoError)
  /-- Only the deferred `Done` is left. -/
  | finishing (item : Item Object Other)

/-- The item that the worker has taken. -/
def Worker.item : Worker Object Other → Option (Item Object Other)
  | .absent => none
  | .idle => none
  | .got item => some item
  | .calling e _ => some (.event e)
  | .failed e _ => some (.event e)
  | .finishing item => some item

/-- What happens to an event. -/
inductive Note (Object : Type)
  | enqueued (e : Event Object)
  | called (e : Event Object)
  | returned (e : Event Object) (result : Except GoError Unit)

structure State (Object Other : Type) [DecidableEq Object] [DecidableEq Other] where
  queue : WorkQueue (Item Object Other)
  worker : Worker Object Other
  /-- What has happened to events so far. -/
  history : List (Note Object)

/-- A new watcher. -/
def State.new : State Object Other := ⟨.empty, .absent, []⟩

/-! ## Steps -/

/-- What may happen next. -/
inductive Action (Object Other : Type)
  | onAdd (obj : Object)
  | onUpdate (oldObj newObj : Object)
  | onDelete (obj : Object)
  /-- The delay of an item is over. -/
  | elapse (item : Item Object Other)
  /-- Equal items that are delayed become one. -/
  | merge (item : Item Object Other)
  /-- `Run` starts the worker. -/
  | run
  /-- The worker goes on; a handler call that is running returns this result. -/
  | work (result : Except GoError Unit)
  /-- `Run` ends. -/
  | shutDown

namespace State

/-- Queue an event, with a delay. -/
def enqueue (s : State Object Other) (e : Event Object) : State Object Other :=
  { s with queue := s.queue.addRateLimited (.event e), history := s.history ++ [.enqueued e] }

def onAdd (s : State Object Other) (obj : Object) : State Object Other :=
  s.enqueue ⟨.addEvent, none, obj⟩

def onUpdate (s : State Object Other) (oldObj newObj : Object) : State Object Other :=
  s.enqueue ⟨.updateEvent, some oldObj, newObj⟩

def onDelete (s : State Object Other) (obj : Object) : State Object Other :=
  s.enqueue ⟨.deleteEvent, none, obj⟩

/-- The next statement of the worker, unless it waits for an item. -/
def processNextWorkItem (s : State Object Other) (result : Except GoError Unit) :
    Option (State Object Other) :=
  match s.worker with
  | .absent => none
  | .idle =>
      match s.queue.get with
      | some (item, queue) => some { s with queue := queue, worker := .got item }
      | none => if s.queue.shuttingDown then some s else none
  | .got (.other obj) =>
      some { s with queue := s.queue.forget (.other obj), worker := .finishing (.other obj) }
  | .got (.event e) =>
      match handlerCall e with
      | some call => some { s with worker := .calling e call, history := s.history ++ [.called e] }
      | none => some { s with worker := .finishing (.event e) }
  | .calling e _ =>
      let worker :=
        match result with
        | .ok () => .finishing (.event e)
        | .error err => .failed e err
      some { s with worker := worker, history := s.history ++ [.returned e result] }
  | .failed e _ => some { s.enqueue e with worker := .finishing (.event e) }
  | .finishing item => some { s with queue := s.queue.done item, worker := .idle }

/-- What an action does, if it can happen. -/
def step (s : State Object Other) : Action Object Other → Option (State Object Other)
  | .onAdd obj => some (s.onAdd obj)
  | .onUpdate oldObj newObj => some (s.onUpdate oldObj newObj)
  | .onDelete obj => some (s.onDelete obj)
  | .elapse item =>
      if item ∈ s.queue.waiting then some { s with queue := s.queue.elapse item } else none
  | .merge item =>
      if 2 ≤ s.queue.waiting.count item then some { s with queue := s.queue.merge item }
      else none
  | .run =>
      match s.worker with
      | .absent => some { s with worker := .idle }
      | _ => none
  | .work result => s.processNextWorkItem result
  | .shutDown => some { s with queue := s.queue.shutDown }

/-- What a sequence of actions does, if they can happen in this order. -/
def run (s : State Object Other) : List (Action Object Other) → Option (State Object Other)
  | [] => some s
  | action :: rest => s.step action >>= fun t => t.run rest

theorem run_append (s : State Object Other) (first second : List (Action Object Other)) :
    s.run (first ++ second) = s.run first >>= fun t => t.run second := by
  induction first generalizing s with
  | nil => rfl
  | cons action rest ih =>
      simp only [List.cons_append, run, bind_assoc]
      exact bind_congr fun t => ih t

end State

end KfMetadata.Watcher
