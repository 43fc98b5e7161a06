/-
# Failures of the store

A handler that sees a call of the store fail should fail, too, except that a list which
the store reports as empty by an error may be answered with an empty list. The handlers
do so, all but `ListEvents`: its lookup of the events assigns the error to a variable of
an inner scope, so that any failure there is answered with no events. Every other error
on its way is reported.

The statements are about the logs of runs, so they hold for whatever the store does.
-/

import KfMetadata.Library.CallLog
import KfMetadata.Service.Specs

namespace KfMetadata.Service

open Mlmd Remote Remote.Program

/-- The requests that may answer that nothing was found with an empty list. -/
def Request.Lists : Request → Prop
  | .listArtifacts _ | .listExecutions _ | .listEvents _ => True
  | _ => False

def notFound : String := "Cannot find any record"

/-- The reply is an error which the request may not turn into an empty list. -/
def Request.Failure (request : Request) (op : Call) (reply : api.Reply op) : Prop :=
  ∃ message, reply = .error message ∧ ¬ (request.Lists ∧ message = notFound)

/-- If a reply was a failure, then the answer is an error. -/
def Reported (request : Request) (log : List (Exchange api))
    (answer : Except GoError request.Response) : Prop :=
  (∃ x ∈ log, request.Failure x.op x.reply) → ∃ e, answer = .error e

/-- The lookups of events. -/
def LooksUpEvents : Call → Prop
  | .getEventsByArtifactIDs _ | .getEventsByExecutionIDs _ => True
  | _ => False

/-- The lookup of the events to list succeeds, or says that there are none. -/
def EventsFound (request : Request) (log : List (Exchange api)) : Prop :=
  (∃ name, request = .listEvents name) →
    ∀ x ∈ log, LooksUpEvents x.op → ∀ message, x.reply = .error message → message = notFound

/-! ## The pieces -/

variable {failure : (op : Call) → api.Reply op → Prop}

theorem heeds_ofResult {α : Type} (result : Except GoError α) :
    Heeds (I := api) failure (ofResult result) := Heeds.of_uses trivial

/-- A call whose error is passed on. -/
theorem heeds_storeCall (op : Call) (hfailure : ∀ reply, failure op reply → ∃ e, reply = .error e) :
    Heeds (I := api) failure (storeCall op) := by
  apply Heeds.of_call
  intro reply
  refine ⟨_, rfl, fun hfails => ?_⟩
  obtain ⟨message, rfl⟩ := hfailure reply hfails
  exact ⟨.text message, rfl⟩

theorem heeds_wrapError {α : Type} {format : String} {args : List Arg} {x : Handler α}
    (hx : Heeds (I := api) failure x) : Heeds (I := api) failure (wrapError format args x) := by
  intro log result hrun hlog
  rw [wrapError, ExceptT.run_mk, runs_bind] at hrun
  obtain ⟨inner, rest, hinner, hrest⟩ := hrun
  cases inner with
  | error cause =>
      obtain ⟨rfl, rfl⟩ := runs_pure.mp hrest
      exact ⟨_, rfl⟩
  | ok value =>
      obtain ⟨rfl, rfl⟩ := runs_pure.mp hrest
      obtain ⟨e, herror⟩ := hx log _ hinner hlog
      cases herror

theorem heeds_onlyItem (r : Resource) (notSingle : String) (items : List (Item r.kind)) :
    Heeds (I := api) failure (onlyItem r notSingle items) :=
  Heeds.of_uses (uses_onlyItem r notSingle items)

section Errors

variable (hfailure : ∀ op reply, failure op reply → ∃ e, reply = .error e)

include hfailure

theorem heeds_getType (r : Resource) (name : String) :
    Heeds (I := api) failure (getType r name) := heeds_storeCall _ (hfailure _)

theorem heeds_getStored (r : Resource) (name : String) :
    Heeds (I := api) failure (getStored r name) :=
  (heeds_ofResult _).bind fun _ =>
    (heeds_storeCall _ (hfailure _)).bind fun items => heeds_onlyItem r _ items

theorem heeds_putType (r : Resource) (opts : PutTypeOptions) (type : Option TypeRecord) :
    Heeds (I := api) failure (putType r opts type) := by
  cases type with
  | none => exact Heeds.of_uses trivial
  | some type => exact (heeds_storeCall _ (hfailure _)).bind fun _ => heeds_getType hfailure r _

theorem heeds_createItem (r : Resource) (parent : String) (item : Option (Item r.kind)) :
    Heeds (I := api) failure (createItem r parent item) := by
  cases item with
  | none => exact Heeds.of_uses trivial
  | some item =>
      unfold createItem
      dsimp only
      split
      · exact Heeds.of_uses trivial
      · apply (heeds_wrapError (heeds_getType hfailure r parent)).bind
        intro type
        apply (heeds_storeCall _ (hfailure _)).bind
        intro ids
        split
        · exact heeds_getStored hfailure r _
        · exact Heeds.of_uses trivial

/-- Every lookup of the loop is heeded. -/
theorem heeds_getInEvents (r : Resource) (notSingle : String) (idOf : Event → Int)
    (events : List Event) (results : Finmap fun _ : Int => Item r.kind) :
    Heeds (I := api) failure (getInEvents r notSingle idOf events results) := by
  induction events generalizing results with
  | nil => exact Heeds.of_uses trivial
  | cons e events ih =>
      unfold getInEvents
      split
      · exact ih results
      · apply (heeds_storeCall _ (hfailure _)).bind
        intro items
        exact (heeds_onlyItem r notSingle items).bind fun item => ih _

/-- The one text that a list may be answered for is no failure. -/
theorem heeds_listItems (hfound : ∀ op, ¬ failure op (.error notFound)) (r : Resource)
    (name : String) : Heeds (I := api) failure (listItems r name) := by
  have hlookup : ∀ (op : Call)
      (f : Except String op.Result → Program api (Except GoError (List (Item r.kind)))),
      (∀ items, ∃ result, f (.ok items) = pure result) →
      (∀ message, f (.error message) =
        if message = notFound then pure (.ok []) else pure (.error (.text message))) →
      Heeds (I := api) failure (ExceptT.mk (call op >>= f)) := by
    intro op f hok herror
    apply Heeds.of_call
    intro reply
    cases reply with
    | ok items =>
        obtain ⟨result, hresult⟩ := hok items
        refine ⟨result, hresult, fun hfails => ?_⟩
        obtain ⟨message, hreply⟩ := hfailure op _ hfails
        cases hreply
    | error message =>
        by_cases hmessage : message = notFound
        · refine ⟨_, (herror message).trans (if_pos hmessage), fun hfails => ?_⟩
          exact absurd (hmessage ▸ hfails) (hfound op)
        · exact ⟨_, (herror message).trans (if_neg hmessage), fun _ => ⟨_, rfl⟩⟩
  unfold listItems
  dsimp only
  split
  · exact hlookup _ _ (fun items => ⟨.ok items, rfl⟩) fun message => rfl
  · exact hlookup _ _ (fun items => ⟨.ok items, rfl⟩) fun message => rfl

/-- The lookups of what the events refer to are heeded, that of the events is not. -/
theorem heeds_listEvents (hlookup : ∀ op reply, failure op reply → ¬ LooksUpEvents op)
    (name : String) : Heeds (I := api) failure (listEvents name) := by
  have hevents : ∀ (op : Call) (events : op.Result → List Event), LooksUpEvents op →
      Heeds (I := api) failure (eventsOrNone op events) := by
    intro op events hop
    apply Heeds.of_call
    intro reply
    cases reply with
    | ok result => exact ⟨_, rfl, fun hfails => absurd hop (hlookup op _ hfails)⟩
    | error message => exact ⟨_, rfl, fun hfails => absurd hop (hlookup op _ hfails)⟩
  unfold listEvents
  apply Heeds.bind
  · unfold namedEvents
    split
    · exact (heeds_ofResult _).bind fun id => hevents _ _ trivial
    · exact (heeds_ofResult _).bind fun id => hevents _ _ trivial
  · intro events
    apply (heeds_wrapError (heeds_getInEvents hfailure .artifact _ _ _ _)).bind
    intro artifacts
    apply (heeds_wrapError (heeds_getInEvents hfailure .execution _ _ _ _)).bind
    intro executions
    exact Heeds.of_uses trivial

end Errors

/-! ## The handlers -/

/-- Every failure is heeded but that of the lookup of events. -/
theorem heeds_handle (request : Request) :
    Heeds (I := api) (fun op reply => request.Failure op reply ∧
      ((∃ name, request = .listEvents name) → ¬ LooksUpEvents op)) (handle request) := by
  have hfailure : ∀ (op : Call) (reply : api.Reply op), (request.Failure op reply ∧
      ((∃ name, request = .listEvents name) → ¬ LooksUpEvents op)) → ∃ e, reply = .error e :=
    fun op reply ⟨⟨message, hreply, _⟩, _⟩ => ⟨message, hreply⟩
  cases request with
  | createArtifactType type => exact heeds_putType hfailure .artifact _ type
  | updateArtifactType type => exact heeds_putType hfailure .artifact _ type
  | createExecutionType type => exact heeds_putType hfailure .execution _ type
  | updateExecutionType type => exact heeds_putType hfailure .execution _ type
  | getArtifactType name => exact heeds_getType hfailure .artifact name
  | getExecutionType name => exact heeds_getType hfailure .execution name
  | listArtifactTypes => exact heeds_storeCall _ (hfailure _)
  | listExecutionTypes => exact heeds_storeCall _ (hfailure _)
  | createArtifact parent item => exact heeds_createItem hfailure .artifact parent item
  | createExecution parent item => exact heeds_createItem hfailure .execution parent item
  | getArtifact name => exact heeds_getStored hfailure .artifact name
  | getExecution name => exact heeds_getStored hfailure .execution name
  | listArtifacts name =>
      refine heeds_listItems hfailure (fun op ⟨⟨message, hreply, hnot⟩, _⟩ => ?_) .artifact name
      cases hreply
      exact hnot ⟨trivial, rfl⟩
  | listExecutions name =>
      refine heeds_listItems hfailure (fun op ⟨⟨message, hreply, hnot⟩, _⟩ => ?_) .execution name
      cases hreply
      exact hnot ⟨trivial, rfl⟩
  | createEvent event => exact heeds_storeCall _ (hfailure _)
  | listEvents name =>
      exact heeds_listEvents hfailure (fun op reply hfails => hfails.2 ⟨name, rfl⟩) name
  | deleteArtifactType name => exact Heeds.of_uses trivial
  | deleteArtifact name => exact Heeds.of_uses trivial
  | deleteExecutionType name => exact Heeds.of_uses trivial
  | deleteExecution name => exact Heeds.of_uses trivial

/-- The lookup of events makes no call, or one, after which it never fails. -/
theorem namedEvents_replay {name : String} {used : List (Exchange api)}
    {result : Except GoError (List Event)}
    (hrun : (namedEvents name).run.Runs replay used result []) :
    used = [] ∨ ∃ x events, used = [x] ∧ result = .ok events ∧
      ((∃ value, x.reply = .ok value) ∨ events = []) := by
  have honce : ∀ (op : Call) (events : op.Result → List Event),
      (eventsOrNone op events).run.Runs replay used result [] →
      ∃ x events, used = [x] ∧ result = .ok events ∧
        ((∃ value, x.reply = .ok value) ∨ events = []) := by
    intro op events hrun
    rw [eventsOrNone, ExceptT.run_mk, runs_bind] at hrun
    obtain ⟨reply, rest, hcall, hrest⟩ := hrun
    cases reply with
    | ok value =>
        obtain ⟨rfl, rfl⟩ := runs_pure.mp hrest
        exact ⟨_, _, Mlmd.runs_call.mp hcall, rfl, Or.inl ⟨value, rfl⟩⟩
    | error message =>
        obtain ⟨rfl, rfl⟩ := runs_pure.mp hrest
        exact ⟨_, _, Mlmd.runs_call.mp hcall, rfl, Or.inr rfl⟩
  unfold namedEvents at hrun
  split at hrun
  · rcases runs_run_bind.mp hrun with ⟨e, -, hparse⟩ | ⟨id, u, hparse, hlookup⟩
    · exact Or.inl (runs_ofResult.mp hparse).2
    · obtain ⟨-, rfl⟩ := runs_ofResult.mp hparse
      exact Or.inr (honce _ _ hlookup)
  · rcases runs_run_bind.mp hrun with ⟨e, -, hparse⟩ | ⟨id, u, hparse, hlookup⟩
    · exact Or.inl (runs_ofResult.mp hparse).2
    · obtain ⟨-, rfl⟩ := runs_ofResult.mp hparse
      exact Or.inr (honce _ _ hlookup)

/-- When `ListEvents` fails, it is not because of the lookup of the events. -/
theorem listEvents_error {name : String} {log : List (Exchange api)} {e : GoError}
    (hrun : (listEvents name).run.Runs replay log (.error e) []) {x : Exchange api} (hx : x ∈ log)
    (hlookup : LooksUpEvents x.op) : ∃ value, x.reply = .ok value := by
  unfold listEvents at hrun
  rcases runs_run_bind.mp hrun with ⟨e', -, hnamed⟩ | ⟨events, rest, hnamed, hrest⟩
  · rcases namedEvents_replay hnamed with rfl | ⟨y, events, -, hok, -⟩
    · exact absurd hx List.not_mem_nil
    · cases hok
  · obtain ⟨used, rfl, hused⟩ := runs_replay.mp hnamed
    -- No later call looks up events.
    have hlater : ∀ y ∈ rest, ¬ LooksUpEvents y.op := by
      have huses := fun r => @uses_getInEvents (fun op => ¬ LooksUpEvents op) r fun _ => id
      exact (Uses.run_bind (uses_wrapError (huses .artifact _ _ _ _)) fun _ =>
        Uses.run_bind (uses_wrapError (huses .execution _ _ _ _)) fun _ =>
          uses_run_pure _).replay hrest
    have hfirst : x ∈ used :=
      (List.mem_append.mp hx).resolve_right fun hmem => hlater x hmem hlookup
    rcases namedEvents_replay hused with rfl | ⟨y, events', rfl, hok, hvalue | rfl⟩
    · exact absurd hfirst List.not_mem_nil
    · rw [List.mem_singleton.mp hfirst]
      exact hvalue
    · -- Without events nothing else is looked up.
      cases hok
      obtain ⟨herror, -⟩ := runs_run_pure.mp hrest
      cases herror

/-- **Failures are reported.** Whatever the store does, a handler that has seen a call fail
answers with an error, if and only if the failure was not that of the lookup of the events
to list. A list may report that nothing was found as empty. -/
theorem reported_iff {σ : Type} {E : Effect api σ} {request : Request} {s t : σ}
    {log : List (Exchange api)} {answer : Except GoError request.Response}
    (hrun : (handle request).run.Runs E.logged (s, []) answer (t, log)) :
    Reported request log answer ↔ EventsFound request log := by
  obtain ⟨log', hlog, hreplay⟩ := hrun.replay_of_logged
  obtain rfl : log = log' := hlog
  apply Iff.intro
  · rintro hreported ⟨name, rfl⟩ x hx hlookup message hmessage
    by_contra hne
    obtain ⟨e, rfl⟩ := hreported ⟨x, hx, message, hmessage, fun hfound => hne hfound.2⟩
    obtain ⟨result, hok⟩ := listEvents_error hreplay hx hlookup
    rw [hmessage] at hok
    cases hok
  · rintro hfound ⟨x, hx, hfails⟩
    refine heeds_handle request log answer hreplay ⟨x, hx, hfails, ?_⟩
    rintro ⟨name, rfl⟩ hlookup
    obtain ⟨message, hmessage, hnot⟩ := hfails
    exact hnot ⟨trivial, hfound ⟨name, rfl⟩ x hx hlookup message hmessage⟩

/-- A store all of whose calls fail. -/
def unavailable : Server api Unit := fun _ s => (.error "unavailable", s)

theorem runs_unavailable (request : Request) :
    (handle request).run.Runs unavailable.effect.logged ((), [])
      ((handle request).run.run unavailable.logged ((), [])).1
      ((handle request).run.run unavailable.logged ((), [])).2 :=
  (runs_of_run unavailable.logged _ _).mono fun _ _ _ _ => unavailable.logged_effect

/-- The lookup of events fails, and `ListEvents` answers that there are none. -/
theorem listEvents_not_reported :
    ¬ ∀ (σ : Type) (E : Effect api σ) (request : Request) (s t : σ) (log : List (Exchange api))
      (answer : Except GoError request.Response),
      (handle request).run.Runs E.logged (s, []) answer (t, log) → Reported request log answer := by
  intro hclaim
  obtain ⟨e, herror⟩ := hclaim _ _ (.listEvents "artifacts/1") _ _ _ _ (runs_unavailable _)
    ⟨_, List.mem_singleton_self _, "unavailable", rfl, fun hfound => absurd hfound.2 (by decide)⟩
  cases herror

/-- Reading a type from the same store fails. -/
theorem getArtifactType_reported :
    Reported (.getArtifactType "m") [⟨.getType .artifact "m", .error "unavailable"⟩]
      (.error (.text "unavailable")) :=
  (reported_iff (runs_unavailable (.getArtifactType "m"))).mpr fun ⟨_, hrequest⟩ => by
    cases hrequest

end KfMetadata.Service
