/-
# Sessions of a client

One client works with the store: it constructs executions and logs artifact objects,
one call after another. Each attempt of a store call may fail without an effect, have
its effect and be answered, or have its effect and lose its reply, and every call is
attempted until it is answered or the client gives up. What survives a call is the
store with the record of the attempts, the ids of the artifact objects, and the
executions whose construction returned.
-/

import KfMetadata.Library.Retry
import KfMetadata.Mlmd.Additions
import KfMetadata.Mlmd.InMemory
import KfMetadata.Sdk.Metadata

namespace KfMetadata.Sdk

open Mlmd Remote

/-! ## Attempts -/

/-- What an attempt may do to the store. -/
def attempt : Outcome → Effect api Store
  | .failed, _, s, reply, t => (∃ message, reply = .error message) ∧ t = s
  | .lost, op, s, reply, t =>
      (∃ message, reply = .error message) ∧ ∃ result, Documented op s.contents result t.contents
  | .replied, op, s, reply, t =>
      ∃ result, reply = .ok result ∧ Documented op s.contents result t.contents

/-- The attempts of a call; an exception is a failure. -/
def attempts : Attempts api Store where
  effect := attempt
  fails _ reply := ∃ message, reply = .error message
  answered outcome op s reply t hattempt := by
    cases outcome with
    | failed => simp [hattempt.1]
    | lost => simp [hattempt.1]
    | replied =>
        obtain ⟨result, rfl, -⟩ := hattempt
        simp

/-- Calls that were made, with how their attempts ended. -/
abbrev Made : Type := List (api.Op × List Outcome)

variable {op : Call} {s t : Recorded api Store}

theorem not_fails_ok (op : Call) (result : op.Result) : ¬ attempts.fails op (.ok result) :=
  fun ⟨_, herror⟩ => by cases herror

/-- An attempt leaves all links in place. -/
theorem attempt_links {outcome : Outcome} {s t : Store} {reply : api.Reply op}
    (hattempt : attempt outcome op s reply t) : LinksGrow s.contents t.contents := by
  cases outcome with
  | failed =>
      rw [hattempt.2]
      exact LinksGrow.refl _
  | lost =>
      obtain ⟨-, result, hdoc⟩ := hattempt
      exact hdoc.links s.wellFormed
  | replied =>
      obtain ⟨result, -, hdoc⟩ := hattempt
      exact hdoc.links s.wellFormed

/-- An attempt takes no record away. -/
theorem attempt_present {outcome : Outcome} {s t : Store} {reply : api.Reply op}
    (hattempt : attempt outcome op s reply t) {k : Kind} {id : Int}
    (hid : Present s.contents k id) : Present t.contents k id := by
  cases outcome with
  | failed =>
      rw [hattempt.2]
      exact hid
  | lost =>
      obtain ⟨-, result, hdoc⟩ := hattempt
      exact hdoc.present hid
  | replied =>
      obtain ⟨result, -, hdoc⟩ := hattempt
      exact hdoc.present hid

theorem attempt_read (hread : op.IsRead) {outcome : Outcome} {s t : Store} {reply : api.Reply op}
    (hattempt : attempt outcome op s reply t) : t = s := by
  cases outcome with
  | failed => exact hattempt.2
  | lost =>
      obtain ⟨-, result, hdoc⟩ := hattempt
      exact Store.ext (hdoc.eq_of_isRead hread)
  | replied =>
      obtain ⟨result, -, hdoc⟩ := hattempt
      exact Store.ext (hdoc.eq_of_isRead hread)

/-! ## Answered calls -/

/-- A call that is answered goes on record, had its documented effect in its last
attempt, and once more for each reply that was lost. -/
theorem recorded_ok (op : Call) {result : op.Result}
    (hcall : attempts.recorded op s (.ok result) t) :
    ∃ (outcomes : List Outcome) (u : Store),
      t.calls = s.calls ++ ([(op, outcomes)] : Made) ∧
        took outcomes = 1 + outcomes.count .lost ∧
        Documented op u.contents result t.state.contents := by
  obtain ⟨outcomes, hretried, hcalls⟩ := hcall
  obtain ⟨-, u, result', hreply, hdoc⟩ := hretried.succeeded (not_fails_ok op result)
  cases hreply
  exact ⟨outcomes, u, hcalls, hretried.took_eq (not_fails_ok op result), hdoc⟩

theorem recorded_links (op : Call) {result : op.Result}
    (hcall : attempts.recorded op s (.ok result) t) :
    LinksGrow s.state.contents t.state.contents := by
  obtain ⟨outcomes, hretried, -⟩ := hcall
  exact hretried.related (R := fun s t => LinksGrow s.contents t.contents)
    (fun _ _ _ => LinksGrow.trans) fun _ _ _ _ => attempt_links

/-- Reading calls change nothing, however often they are attempted. -/
theorem recorded_read (op : Call) {result : op.Result} (hread : op.IsRead)
    (hcall : attempts.recorded op s (.ok result) t) :
    t.state = s.state ∧ Documented op s.state.contents result t.state.contents := by
  obtain ⟨outcomes, hretried, -⟩ := hcall
  have hsame : t.state = s.state :=
    hretried.related (R := fun s t => t = s) (fun _ _ _ hfirst hsecond => hsecond.trans hfirst)
      fun _ _ _ _ => attempt_read hread
  obtain ⟨-, u, hlast⟩ := hretried.succeeded (not_fails_ok op result)
  change attempt .replied op u _ t.state at hlast
  have hu : t.state = u := attempt_read hread hlast
  obtain ⟨result', hreply, hdoc⟩ := hlast
  cases hreply
  rw [← hu, hsame] at hdoc
  rw [hsame]
  exact ⟨rfl, hdoc⟩

/-! ## A scripted store -/

/-- How an attempt ends that should end in a given way, when the store would answer it. -/
def endAs {α : Type} (outcome : Outcome) (answer : Except String α) (s t : Store) :
    Outcome × Except String α × Store :=
  match outcome, answer with
  | .replied, .ok result => (.replied, .ok result, t)
  | .lost, .ok _ => (.lost, .error "reply lost", t)
  | _, _ => (.failed, .error "failed", s)

/-- One attempt at the store in memory, which ends as the script says if it can. -/
def attemptInMemory (op : Call) (outcome : Outcome) (s : Store) :
    Outcome × Except String op.Result × Store :=
  endAs outcome (inMemory op s).1 s (inMemory op s).2

/-- Attempts as the script says, and one that fails when it has ended. -/
def play (op : Call) : List Outcome → Store → List Outcome × Except String op.Result × Store
  | [], s => ([.failed], .error "failed", s)
  | outcome :: script, s =>
      match attemptInMemory op outcome s with
      | (outcome, .ok result, t) => ([outcome], .ok result, t)
      | (outcome, .error _, u) =>
          let (outcomes, reply, t) := play op script u
          (outcome :: outcomes, reply, t)

/-- The store in memory with a script for the attempts of each call. -/
def scripted (script : Call → List Outcome) : Server api (Recorded api Store) := fun op s =>
  let (outcomes, reply, t) := play op (script op) s.state
  (reply, ⟨t, s.calls ++ [(op, outcomes)]⟩)

theorem endAs_attempt {s t : Store} (op : Call) (outcome : Outcome)
    (answer : Except String op.Result)
    (haccepted : ∀ result, answer = .ok result → Documented op s.contents result t.contents) :
    attempt (endAs outcome answer s t).1 op s (endAs outcome answer s t).2.1
      (endAs outcome answer s t).2.2 := by
  cases answer with
  | error message => cases outcome <;> exact ⟨⟨_, rfl⟩, rfl⟩
  | ok result =>
      cases outcome with
      | failed => exact ⟨⟨_, rfl⟩, rfl⟩
      | lost => exact ⟨⟨_, rfl⟩, result, haccepted result rfl⟩
      | replied => exact ⟨result, rfl, haccepted result rfl⟩

theorem play_retried (op : Call) (script : List Outcome) (s : Store) :
    Retried attempts op (play op script s).1 s (play op script s).2.1 (play op script s).2.2 := by
  induction script generalizing s with
  | nil => exact .once (⟨⟨_, rfl⟩, rfl⟩ : attempt .failed op s _ s)
  | cons outcome script ih =>
      have hattempt := endAs_attempt op outcome (inMemory op s).1 fun result hanswer =>
        inMemory_available.accepted op s _ result (Prod.ext hanswer rfl)
      rw [play]
      split
      · rename_i houtcome
        rw [attemptInMemory] at houtcome
        rw [houtcome] at hattempt
        exact .once hattempt
      · rename_i message u houtcome
        rw [attemptInMemory] at houtcome
        rw [houtcome] at hattempt
        exact .again hattempt ⟨message, rfl⟩ (ih u)

/-- Whatever the script, the store in memory does what a store may do. -/
theorem scripted_recorded {script : Call → List Outcome} {reply : api.Reply op}
    (heffect : (scripted script).effect op s reply t) : attempts.recorded op s reply t := by
  obtain ⟨rfl, rfl⟩ := Prod.mk.inj heffect
  exact ⟨_, play_retried op (script op) s.state, rfl⟩

/-- The store in memory, with every call answered at once. -/
def answering : Server api (Recorded api Store) := scripted fun _ => [.replied]

/-! ## The system -/

variable {Ref : Type}

/-- What a call of the client leaves behind. -/
structure World (Ref : Type) where
  session : Recorded api Store
  /-- The ids of the artifact objects. -/
  ids : Ref → Option Int
  /-- The executions constructed so far. -/
  executions : List Execution

/-- The store of a world. -/
def World.store (w : World Ref) : Store := w.session.state

/-- What the client calls. -/
inductive Action (Ref : Type)
  | execution (name : Option String) (workspace : Option Workspace) (run : Option Run)
      (description : Option String) (createTime : String)
  | logInput (self : Execution) (artifact : Ref)
  | logOutput (self : Execution) (artifact : Ref)

/-- Which event, execution and artifact object an action logs. -/
def Action.logs : Action Ref → Option (EventType × Execution × Ref)
  | .execution .. => none
  | .logInput self artifact => some (.input, self, artifact)
  | .logOutput self artifact => some (.output, self, artifact)

variable (objects : Ref → ArtifactObject) [DecidableEq Ref]

/-- One call of the client, with whether it returns or raises. -/
inductive Step : World Ref → Action Ref → Except PyError Unit → World Ref → Prop
  | constructed {w : World Ref} {name : Option String} {workspace : Option Workspace}
      {run : Option Run} {description : Option String} {createTime : String} {e : Execution}
      {session : Recorded api Store}
      (hrun : (newExecution name workspace run description createTime).run.Runs attempts.recorded
        w.session (.ok e) session) :
      Step w (.execution name workspace run description createTime) (.ok ())
        { w with session := session, executions := w.executions ++ [e] }
  | notConstructed {w : World Ref} {name : Option String} {workspace : Option Workspace}
      {run : Option Run} {description : Option String} {createTime : String} {e : PyError}
      {session : Recorded api Store}
      (hrun : (newExecution name workspace run description createTime).run.Runs attempts.recorded
        w.session (.error e) session) :
      Step w (.execution name workspace run description createTime) (.error e)
        { w with session := session }
  | loggedInput {w : World Ref} {self : Execution} {artifact : Ref} {r : Except PyError Unit}
      {session : Recorded api Store} {id : Option Int} (hself : self ∈ w.executions)
      (hrun : (self.logInput (some (objects artifact))).Runs attempts.recorded
        w.session (w.ids artifact) r session id) :
      Step w (.logInput self artifact) r
        { w with session := session, ids := Function.update w.ids artifact id }
  | loggedOutput {w : World Ref} {self : Execution} {artifact : Ref} {r : Except PyError Unit}
      {session : Recorded api Store} {id : Option Int} (hself : self ∈ w.executions)
      (hrun : (self.logOutput (some (objects artifact))).Runs attempts.recorded
        w.session (w.ids artifact) r session id) :
      Step w (.logOutput self artifact) r
        { w with session := session, ids := Function.update w.ids artifact id }

/-- Calls one after another, each made when the condition holds. -/
inductive Calls (condition : World Ref → Action Ref → Prop) (start : World Ref) :
    List (Action Ref × Except PyError Unit) → World Ref → Prop
  | nil : Calls condition start [] start
  | snoc {calls : List (Action Ref × Except PyError Unit)} {w v : World Ref} {action : Action Ref}
      {r : Except PyError Unit} (hcalls : Calls condition start calls w)
      (hcondition : condition w action) (hstep : Step objects w action r v) :
      Calls condition start (calls ++ [(action, r)]) v

variable {objects} {w v : World Ref} {action : Action Ref} {r : Except PyError Unit}

/-- What a logging call does, for inputs and outputs alike. -/
theorem Step.logAs {type : EventType} {self : Execution} {artifact : Ref}
    (hlogs : action.logs = some (type, self, artifact)) (hstep : Step objects w action r v) :
    ∃ id, (self.logAs type (some (objects artifact))).Runs attempts.recorded w.session
        (w.ids artifact) r v.session id ∧ v.ids = Function.update w.ids artifact id := by
  cases hstep with
  | constructed hrun => cases hlogs
  | notConstructed hrun => cases hlogs
  | loggedInput hself hrun =>
      cases hlogs
      exact ⟨_, hrun, rfl⟩
  | loggedOutput hself hrun =>
      cases hlogs
      exact ⟨_, hrun, rfl⟩

/-- Every call of the client is a run of some program against the store. -/
theorem Step.exists_runs (hstep : Step objects w action r v) :
    ∃ (α : Type) (p : Program api α) (a : α), p.Runs attempts.recorded w.session a v.session := by
  cases hstep with
  | constructed hrun => exact ⟨_, _, _, hrun⟩
  | notConstructed hrun => exact ⟨_, _, _, hrun⟩
  | loggedInput hself hrun => exact ⟨_, _, _, hrun⟩
  | loggedOutput hself hrun => exact ⟨_, _, _, hrun⟩

/-- No call of the client takes a link away. -/
theorem Step.links (hstep : Step objects w action r v) :
    LinksGrow w.store.contents v.store.contents := by
  obtain ⟨α, p, a, hrun⟩ := hstep.exists_runs
  exact hrun.recorded_related (R := fun s t => LinksGrow s.contents t.contents)
    (fun s => LinksGrow.refl s.contents) (fun _ _ _ => LinksGrow.trans)
    fun _ _ _ _ _ => attempt_links

/-- No call of the client takes a record away. -/
theorem Step.present (hstep : Step objects w action r v) {k : Kind} {i : Int}
    (hi : Present w.store.contents k i) : Present v.store.contents k i := by
  obtain ⟨α, p, a, hrun⟩ := hstep.exists_runs
  let R (s t : Store) : Prop := Present s.contents k i → Present t.contents k i
  have hkept : R w.session.state v.session.state :=
    hrun.recorded_related (fun _ => id) (fun _ _ _ hfirst hsecond hs => hsecond (hfirst hs))
      fun _ _ _ _ _ hattempt => attempt_present hattempt
  exact hkept hi

/-- Every call of the client adds to the record. -/
theorem Step.calls_prefix (hstep : Step objects w action r v) :
    w.session.calls <+: v.session.calls := by
  obtain ⟨α, p, a, hrun⟩ := hstep.exists_runs
  obtain ⟨made, hmade⟩ := hrun.calls_prefix
  exact ⟨made, hmade.symm⟩

theorem Calls.calls_prefix {condition : World Ref → Action Ref → Prop} {start : World Ref}
    {calls : List (Action Ref × Except PyError Unit)}
    (hcalls : Calls objects condition start calls w) :
    start.session.calls <+: w.session.calls := by
  induction hcalls with
  | nil => exact List.prefix_refl _
  | snoc _ _ hstep ih => exact ih.trans hstep.calls_prefix

/-- An id that is set stays. -/
theorem Step.ids (hstep : Step objects w action r v) {artifact : Ref} {id : Int}
    (hid : w.ids artifact = some id) : v.ids artifact = some id := by
  have hupdate : ∀ {type : EventType} {self : Execution} {artifact' : Ref} {id' : Option Int}
      {t : Recorded api Store}, (self.logAs type (some (objects artifact'))).Runs
        attempts.recorded w.session (w.ids artifact') r t id' →
      Function.update w.ids artifact' id' artifact = some id := by
    intro type self artifact' id' t hrun
    by_cases hsame : artifact = artifact'
    · subst hsame
      rw [hid] at hrun
      rw [Function.update_self]
      exact runs_logAs_known hrun
    · rw [Function.update_of_ne hsame]
      exact hid
  cases hstep with
  | constructed hrun => exact hid
  | notConstructed hrun => exact hid
  | loggedInput hself hrun => exact hupdate hrun
  | loggedOutput hself hrun => exact hupdate hrun

/-! ## A small session -/

/-- A store with the types that a session needs, and one workspace. -/
def prepared : Recorded api Store where
  state :=
    ((do
      let opts : PutTypeOptions := ⟨false, false, true⟩
      let _ ← call (.putType .artifact ⟨none, some "model", ∅⟩ opts)
      let _ ← call (.putType .execution ⟨none, some executionTypeName,
        (Finmap.singleton "name" PropertyType.string).insert "create_time" .string⟩ opts)
      let _ ← call (.putType .context ⟨none, some "workspace", ∅⟩ opts)
      call (.putItems .context [⟨none, some 1, ∅, ∅, some "ws"⟩])).run inMemory Store.empty).2
  calls := []

/-- An artifact object of which nothing is a duplicate. -/
def model : ArtifactObject where
  typeName := "model"
  uri := "gs://model"
  serialization := ⟨none, none, ∅, ∅, some "gs://model"⟩
  isDuplicated _ _ := false

def workspace : Workspace := ⟨"ws", 1⟩

/-- The execution that construction returns. -/
def trainer : Execution := ⟨some 1, "trainer", workspace, none, none, "2019-01-01", 1⟩

def constructTrainer : Py Execution :=
  newExecution (some "trainer") (some workspace) none none "2019-01-01"

/-- The session after the construction, with every call answered. -/
def constructed : Recorded api Store := (constructTrainer.run.run answering prepared).2

theorem step_constructTrainer :
    Step (fun _ : Unit => model) ⟨prepared, fun _ => none, []⟩
      (.execution (some "trainer") (some workspace) none none "2019-01-01") (.ok ())
      ⟨constructed, fun _ => none, [trainer]⟩ :=
  .constructed ((Program.runs_run_of_toOption answering constructTrainer prepared
    (a := trainer) rfl).mono fun _ _ _ _ => scripted_recorded)

end KfMetadata.Sdk
