/-
# How often the writes of a call take effect

A call of the client that returns has had every one of its store calls answered. Each
of these took effect in the attempt that was answered, and once more for every attempt
whose reply was lost; nothing in the requests lets the store tell a repeated attempt
from a new one. So the writes of a call take effect at least once, and exactly once if
no reply was lost, and the store gains as many executions, artifacts and events as
that comes to.
-/

import KfMetadata.Sdk.Session

namespace KfMetadata.Sdk

open Mlmd Remote

/-! ## The calls that are made -/

/-- Between the two states these calls were made and answered, in this order, and each
took effect once more than its replies were lost. -/
def Answered (s t : Recorded api Store) (ops : List Call) : Prop :=
  ∃ made : Made, t.calls = s.calls ++ made ∧ made.map Prod.fst = ops ∧
    ∀ c ∈ made, took c.2 = 1 + c.2.count .lost

variable {s t u : Recorded api Store}

theorem Answered.of_call (op : Call) {result : op.Result}
    (hcall : attempts.recorded op s (.ok result) t) : Answered s t [op] := by
  obtain ⟨outcomes, -, hcalls, htook, -⟩ := recorded_ok op hcall
  exact ⟨[(op, outcomes)], hcalls, rfl, fun c hc => by
    rw [List.mem_singleton.mp hc]
    exact htook⟩

theorem Answered.trans {ops ops' : List Call} (hfirst : Answered s t ops)
    (hsecond : Answered t u ops') : Answered s u (ops ++ ops') := by
  obtain ⟨made, hcalls, hops, htook⟩ := hfirst
  obtain ⟨made', hcalls', hops', htook'⟩ := hsecond
  refine ⟨made ++ made', by rw [hcalls', hcalls, List.append_assoc],
    by rw [List.map_append, hops, hops']; rfl, fun c hc => ?_⟩
  rcases List.mem_append.mp hc with hc | hc
  · exact htook c hc
  · exact htook' c hc

/-- The calls of a construction: one execution is put, and associated. -/
def ConstructionCalls (ops : List Call) : Prop :=
  ∃ (x : Mlmd.Execution) (member : Association), x.id = none ∧
    ops = [.getType .execution executionTypeName, .putItems .execution [x],
      .putAttributionsAndAssociations [] [member]]

/-- The calls of logging: one artifact is put and attributed, or none, and one event is
put last. -/
def LoggingCalls (artifact : ArtifactObject) (ops : List Call) : Prop :=
  ∃ e : Mlmd.Event,
    (∃ id, ops = [.getType .artifact artifact.typeName, .getItemsByID .artifact [id],
      .putEvents [some e]]) ∨
    ops = [.getType .artifact artifact.typeName, .getArtifactsByURI artifact.uri,
      .putEvents [some e]] ∨
    ∃ (ser : Artifact) (member : Attribution), ser.id = artifact.serialization.id ∧
      ops = [.getType .artifact artifact.typeName, .getArtifactsByURI artifact.uri,
        .putItems .artifact [ser], .putAttributionsAndAssociations [member] [],
        .putEvents [some e]]

variable {Ref : Type} [DecidableEq Ref] {objects : Ref → ArtifactObject}

/-- The calls of an action. -/
def CallsOf (objects : Ref → ArtifactObject) (action : Action Ref) (ops : List Call) : Prop :=
  match action.logs with
  | none => ConstructionCalls ops
  | some (_, _, ref) => LoggingCalls (objects ref) ops

theorem answered_newExecution {name : Option String} {workspace : Option Workspace}
    {run : Option Run} {description : Option String} {createTime : String} {e : Execution}
    (hrun : (newExecution name workspace run description createTime).run.Runs attempts.recorded
      s (.ok e) t) : ∃ ops, Answered s t ops ∧ ConstructionCalls ops := by
  obtain ⟨type, id, rest, u, v, htype, hput, hmember, -⟩ := runs_newExecution_ok hrun
  have hall := ((Answered.of_call (.getType ..) htype).trans
    (Answered.of_call (.putItems ..) hput)).trans
      (Answered.of_call (.putAttributionsAndAssociations ..) hmember)
  exact ⟨_, hall, e.serialized, ⟨e.workspace.contextId, id⟩, rfl, rfl⟩

theorem serializationOf_id {self : Execution} {artifact : ArtifactObject} {typeId : Int}
    {ser : Artifact} (hser : serializationOf self artifact typeId = .ok ser) :
    ser.id = artifact.serialization.id := by
  simp only [serializationOf] at hser
  split at hser
  · cases hser
  · split at hser
    · cases hser
    · cases hser
      rfl

theorem answered_logAs {type : EventType} {self : Execution} {artifact : ArtifactObject}
    {l m : Option Int}
    (hrun : (self.logAs type (some artifact)).Runs attempts.recorded s l (.ok ()) t m) :
    ∃ ops, Answered s t ops ∧ LoggingCalls artifact ops := by
  obtain ⟨u, hexit, hevent⟩ := runs_logAs_ok hrun
  have hlast := Answered.of_call (.putEvents _) hevent
  cases hexit with
  | known htype hcheck hone =>
      have hall := ((Answered.of_call (.getType ..) htype).trans
        (Answered.of_call (.getItemsByID ..) hcheck)).trans hlast
      exact ⟨_, hall, _, Or.inl ⟨_, rfl⟩⟩
  | duplicate htype hser hlist hfound =>
      have hall := ((Answered.of_call (.getType ..) htype).trans
        (Answered.of_call (.getArtifactsByURI _) hlist)).trans hlast
      exact ⟨_, hall, _, Or.inr (Or.inl rfl)⟩
  | stored htype hser hlist hnone hput hmember =>
      have hall := ((((Answered.of_call (.getType ..) htype).trans
        (Answered.of_call (.getArtifactsByURI _) hlist)).trans
        (Answered.of_call (.putItems ..) hput)).trans
        (Answered.of_call (.putAttributionsAndAssociations ..) hmember)).trans hlast
      exact ⟨_, hall, _, Or.inr (Or.inr ⟨_, _, serializationOf_id hser, rfl⟩)⟩

/-! ## What they add -/

/-- How many records of a kind the calls on record have added. -/
def addedItems (k : Kind) (made : Made) : Nat :=
  (made.map fun c => newItems k c.1 * took c.2).sum

/-- How many events the calls on record have added. -/
def addedEvents (made : Made) : Nat :=
  (made.map fun c => newEvents c.1 * took c.2).sum

theorem attempt_took {op : Call} {outcome : Outcome} {s t : Store} {reply : api.Reply op}
    (hne : outcome ≠ .failed) (hattempt : attempt outcome op s reply t) :
    ∃ result, Documented op s.contents result t.contents := by
  cases outcome with
  | failed => exact absurd rfl hne
  | lost => exact hattempt.2
  | replied =>
      obtain ⟨result, -, hdoc⟩ := hattempt
      exact ⟨result, hdoc⟩

variable {w v : World Ref} {action : Action Ref} {r : Except PyError Unit}

/-- Whether a call returns or raises, the store gains what the record says. -/
theorem Step.accounted (hstep : Step objects w action r v) {made : Made}
    (hmade : v.session.calls = w.session.calls ++ made) :
    (∀ k, (v.store.contents.items k).length =
      (w.store.contents.items k).length + addedItems k made) ∧
    v.store.contents.events.length = w.store.contents.events.length + addedEvents made := by
  obtain ⟨α, p, a, hrun⟩ := hstep.exists_runs
  apply And.intro
  · intro k
    refine hrun.accounted (fun s => (s.contents.items k).length) (newItems k)
      (fun op s reply t hattempt => ?_)
      (fun op outcome s reply t hne hattempt => ?_) hmade
    · rw [hattempt.2]
    · obtain ⟨result, hdoc⟩ := attempt_took hne hattempt
      exact hdoc.length_items k
  · refine hrun.accounted (fun s => s.contents.events.length) newEvents
      (fun op s reply t hattempt => ?_)
      (fun op outcome s reply t hne hattempt => ?_) hmade
    · rw [hattempt.2]
    · obtain ⟨result, hdoc⟩ := attempt_took hne hattempt
      exact hdoc.length_events

/-- **Writes take effect at least once.** A call that returns has made its store calls in
order, of which a construction puts one execution, and logging at most one artifact and
one event. Each took effect once, and once more for every reply that was lost, and the
store has gained exactly the records and events of these effects. -/
theorem writes_at_least_once (hstep : Step objects w action (.ok ()) v) :
    ∃ made : Made, v.session.calls = w.session.calls ++ made ∧
      CallsOf objects action (made.map Prod.fst) ∧
      (∀ c ∈ made, took c.2 = 1 + c.2.count .lost) ∧
      (∀ k, (v.store.contents.items k).length =
        (w.store.contents.items k).length + addedItems k made) ∧
      v.store.contents.events.length = w.store.contents.events.length + addedEvents made := by
  have hanswered : ∃ ops, Answered w.session v.session ops ∧ CallsOf objects action ops := by
    cases hstep with
    | constructed hrun => exact answered_newExecution hrun
    | loggedInput hself hrun => exact answered_logAs hrun
    | loggedOutput hself hrun => exact answered_logAs hrun
  obtain ⟨ops, ⟨made, hmade, rfl, htook⟩, hcalls⟩ := hanswered
  obtain ⟨hitems, hevents⟩ := hstep.accounted hmade
  exact ⟨made, hmade, hcalls, htook, hitems, hevents⟩

/-! ## A lost reply -/

/-- The store in memory, which loses the first reply to every insertion. -/
def losingFirst : Server api (Recorded api Store) := scripted fun op =>
  match op with
  | .putItems .. => [.lost, .replied]
  | _ => [.replied]

/-- The session after a construction whose first reply is lost. -/
def constructedTwice : Recorded api Store := (constructTrainer.run.run losingFirst prepared).2

theorem step_constructedTwice :
    Step (fun _ : Unit => model) ⟨prepared, fun _ => none, []⟩
      (.execution (some "trainer") (some workspace) none none "2019-01-01") (.ok ())
      ⟨constructedTwice, fun _ => none, [{ trainer with id := some 2 }]⟩ :=
  .constructed ((Program.runs_run_of_toOption losingFirst constructTrainer prepared
    (a := { trainer with id := some 2 }) rfl).mono fun _ _ _ _ => scripted_recorded)

/-- A construction that returns may have stored two executions. -/
theorem construction_stores_two :
    ¬ ∀ (objects : Unit → ArtifactObject) (w v : World Unit) (action : Action Unit),
      Step objects w action (.ok ()) v →
        (v.store.contents.items .execution).length ≤
          (w.store.contents.items .execution).length + 1 := by
  intro hclaim
  have hone := hclaim _ _ _ _ step_constructedTwice
  exact absurd hone (by decide +kernel)

/-- The record of that construction accounts for both. -/
theorem writes_at_least_once_constructedTwice :
    ∃ made : Made, constructedTwice.calls = made ∧
      (∀ c ∈ made, took c.2 = 1 + c.2.count .lost) ∧
      (constructedTwice.state.contents.items .execution).length = addedItems .execution made := by
  obtain ⟨made, hmade, -, htook, hitems, -⟩ := writes_at_least_once step_constructedTwice
  refine ⟨made, hmade, htook, (hitems .execution).trans ?_⟩
  have hnone : (prepared.state.contents.items .execution).length = 0 := by decide +kernel
  exact (congrArg (· + _) hnone).trans (Nat.zero_add _)

end KfMetadata.Sdk
