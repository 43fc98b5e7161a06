/-
# What is logged is served

Users of the client and users of the service share one store. Once a call that logs an
artifact object has returned, what it has stored is what the service answers to everyone
who asks later: the artifact is got under its name and is in the listings of its type, and
the event is in the lists of both its ends, together with the artifact and the execution.
This holds whatever else is constructed, logged or requested in the meantime.
-/

import KfMetadata.Sdk.SharedServer
import KfMetadata.Service.Answered

namespace KfMetadata.Sdk

open Mlmd Remote Remote.Program Schema Service

variable {E : Effect api Store} {P : Store → Prop} {s t : Store}

/-! ## Requests that are not refused -/

section Requests

variable (hE : Obliging E)
include hE

end Requests

/-! ## Tasks that are started later -/

/-- What the user logs: the type of the event, the execution, and the object with its id. -/
def Task.logs : Task → Option (EventType × Execution × LoggedObject × Option Int)
  | .logInput self artifact id => some (.input, self, artifact, id)
  | .logOutput self artifact id => some (.output, self, artifact, id)
  | _ => none

/-- How the call ends. -/
theorem Ends.logged {dumps : Dumps} {task : Task} {type : EventType} {self : Execution}
    {x : LoggedObject} {l m : Option Int} {result : Except PyError Unit}
    (hends : Ends dumps task (.logged result m) s)
    (hlogs : task.logs = some (type, self, x, l)) : LogAsEnds dumps type self x l result m s := by
  cases task with
  | logInput self artifact id =>
      cases hlogs
      exact hends
  | logOutput self artifact id =>
      cases hlogs
      exact hends
  | _ => cases hlogs

section Later

variable {ι : Type} [DecidableEq ι] {dumps : Dumps} {memories : ι → Memory} {i j : ι}
  {c d : Config api Store ι Memory Task Ending}

theorem Reached.served (hE : Obliging E) (hreached : Reached E dumps memories c) :
    (serving dumps (fun _ => True) fun (_ : ι) _ _ _ => True).Holds E c :=
  hreached.holds hE fun _ => working_anything hE

/-- A user who asks is answered. -/
theorem steps_request {c : Config api Store ι Memory Task Ending} {j : ι} {memory : Memory}
    (hidle : c.phase j = .idle memory) (request : Request) :
    ∃ d reply, (users dumps ι).Steps willing AddsOnly c d ∧
      d.phase j = .busy memory (.send request) (.done (.answered ⟨request, reply⟩)) := by
  obtain ⟨reply, t, hrun⟩ := exists_runs willing_available.responds (handle request).run c.state
  exact ⟨_, reply, Clients.Steps.of_runs (users dumps ι) AddsOnly j memory (.send request) hidle
    trivial (runs_map.mpr ⟨reply, hrun, rfl⟩), Function.update_self ..⟩

/-- **Lists are answered.** Whatever the users construct, log and request in the meantime, no
request for a list of types, records or events is refused, unless there is no id in the name
of the events. -/
theorem lists_answered (hE : Obliging E) (hreached : Reached E dumps memories c)
    {memory : Memory} {request : Request} {reply : Except GoError request.Response}
    (hlist : request.IsList)
    (hphase : c.phase i = .busy memory (.send request) (.done (.answered ⟨request, reply⟩))) :
    ListEnds request reply := by
  have hprogram : ∀ (_ : ι) memory task s, Task.Possible memory task → Remembers memory s →
      Working E (fun _ => True) (fun ending _ => task = .send request →
        ∀ reply : Except GoError request.Response, ending = .answered ⟨request, reply⟩ →
          ListEnds request reply) (task.program dumps) s := by
    intro _ memory task s hpossible hremembers
    by_cases htask : task = .send request
    · rw [htask]
      refine Safe.map grows_refl grows_trans
        ((working_handle hE.toLawful.sound (meanwhile_list hE hlist s)).mono ?_)
      intro reply t _ hends _ reply' hsame
      cases hsame
      exact hends
    · exact (working_anything hE memory task s hpossible hremembers).mono
        fun _ _ _ _ hsame => absurd hsame htask
  exact (hreached.ends (Q := fun _ task ending _ => task = .send request →
    ∀ reply : Except GoError request.Response, ending = .answered ⟨request, reply⟩ →
      ListEnds request reply) hE hprogram hphase).2 rfl reply rfl

/-- Listing the events of the model needs both its ends, which are there. -/
theorem lists_answered_digits :
    ∃ memory, ∃ c : Config api Store Nat Memory Task Ending, ∃ list : EventList,
      Reached willing dumpsDigits emptyHanded c ∧
        c.phase 1 = .busy memory (.send (.listEvents "artifacts/1"))
          (.done (.answered ⟨.listEvents "artifacts/1", .ok list⟩)) := by
  obtain ⟨memory, self, w', e', c, hreached, -, hidle, -⟩ := reached_logged
  obtain ⟨d, reply, hlater, hlisted⟩ := steps_request hidle (.listEvents "artifacts/1")
  have hd : Reached willing dumpsDigits emptyHanded d := hreached.trans hlater
  have hlist : Request.IsList (.listEvents "artifacts/1") := trivial
  rcases lists_answered willing_obliging hd hlist hlisted with
    ⟨list, rfl⟩ | ⟨name, e, hsame, hid, -⟩
  · exact ⟨_, d, list, hd, hlisted⟩
  · cases hsame
    have hone : IsId 1 := by decide
    cases hid.symm.trans (eventsId_eventsName .artifact hone)

end Later

end KfMetadata.Sdk
