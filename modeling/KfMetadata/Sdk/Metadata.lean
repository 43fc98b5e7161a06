/-
# Executions and the artifacts they log

An execution is stored when it is constructed, and then logs artifacts as its inputs
and outputs. Logging an artifact object that has no id yet finds a duplicate in the
store or stores a new artifact, and assigns the object its id; the assignment stands
when a later call raises an exception. Every call of the store is retried; what the
retries do is left to the effect that a program is run against.

The objects that are logged come from classes that any user may write, so an artifact
object is whatever its class says of its type, its serialization and its duplicates.
-/

import KfMetadata.Library.Procedure
import KfMetadata.Mlmd.Additions
import KfMetadata.Mlmd.Client

namespace KfMetadata.Sdk

open Mlmd Remote

def workspacePropertyName : String := "__kf_workspace__"

def runPropertyName : String := "__kf_run__"

def executionTypeName : String := "kubeflow.org/alpha/execution"

/-- An exception: one of the store's, an empty list, or an invalid value, possibly
because of a further exception. The texts are formats with their arguments. -/
inductive PyError
  | rpc (message : String)
  | indexError
  | valueError (format : String) (args : List Arg)
  | valueErrorFrom (format : String) (args : List Arg) (cause : PyError)

/-- A program of store calls that may raise an exception. -/
abbrev Py (α : Type) : Type := ExceptT PyError (Program api) α

/-- A call of the store, with all its retries. -/
def retry (op : Call) : Py op.Result := callOr .rpc op

/-- The first of the ids that the store returns, which are as many as the items put. -/
def firstOf : List Int → Except PyError Int
  | [] => .error .indexError
  | id :: _ => .ok id

/-! ## Properties -/

/-- Whether Python takes the value of a property for true; a double is so unless it is
one of the two zeros. -/
def truthy : Value → Bool
  | .unset => false
  | .int value => value ≠ 0
  | .double bits => bits ≠ 0 ∧ bits ≠ BitVec.twoPow 64 63
  | .string value => value ≠ ""

/-- Only the properties with a value that is true. -/
def delNoneProperties (properties : StringMap Value) : StringMap Value :=
  properties.filterMap fun _ value => if truthy value then some value else none

/-- The value of an attribute that may be missing. -/
def stringValue : Option String → Value
  | some text => .string text
  | none => .unset

/-! ## Objects -/

/-- A workspace: its name and the context that stands for it. -/
structure Workspace where
  name : String
  contextId : Int

/-- A run, of which only the name is used. -/
structure Run where
  name : String

/-- An execution in a workspace. -/
structure Execution where
  id : Option Int
  name : String
  workspace : Workspace
  run : Option Run
  description : Option String
  createTime : String
  typeId : Int

/-- What an artifact object is, apart from its id. -/
structure ArtifactObject where
  /-- The name of its type. -/
  typeName : String
  uri : String
  /-- The message that it is stored as. -/
  serialization : Artifact
  /-- Whether two messages stand for the same artifact. -/
  isDuplicated : Artifact → Artifact → Bool

/-- The properties that say where something was logged. -/
def placeProperties (self : Execution) (properties : StringMap Value) : StringMap Value :=
  let withWorkspace := properties.insert workspacePropertyName (.string self.workspace.name)
  match self.run with
  | none => withWorkspace
  | some run => withWorkspace.insert runPropertyName (.string run.name)

/-- The message that an execution is stored as. -/
def Execution.serialized (self : Execution) : Mlmd.Execution where
  id := none
  typeId := some self.typeId
  properties := delNoneProperties (((Finmap.singleton "name" (Value.string self.name)).insert
    "create_time" (.string self.createTime)).insert
    "description" (stringValue self.description))
  customProperties := placeProperties self ∅
  detail := ()

/-! ## Construction -/

/-- Construct an execution: it is stored, and associated with its workspace. A name that
is missing is none, or not a string. -/
def newExecution (name : Option String) (workspace : Option Workspace) (run : Option Run)
    (description : Option String) (createTime : String) : Py Execution :=
  match workspace, name with
  | none, _ => throw (.valueError "'workspace' must be set." [])
  | some _, none => throw (.valueError "'name' must be set and in string type." [])
  | some workspace, some name => do
      let type ← retry (.getType .execution executionTypeName)
      let self : Execution := ⟨none, name, workspace, run, description, createTime, type.getId⟩
      let ids ← retry (.putItems .execution [self.serialized])
      let id ← ofResult (firstOf ids)
      let _ ← retry (.putAttributionsAndAssociations [] [⟨workspace.contextId, id⟩])
      return { self with id := some id }

/-! ## Logging -/

/-- An id that is set must be that of exactly one stored artifact. -/
def checkArtifactId (aid : Int) : Py Unit := do
  let pbs ← ExceptT.adapt (PyError.valueErrorFrom "invalid artifact id {}: {}" [.ids [aid]])
    (retry (.getItemsByID .artifact [aid]))
  if pbs.length = 1 then pure ()
  else throw (.valueError "invalid artifact id {}: artifacts with this id: {}"
    [.ids [aid], .items .artifact pbs])

/-- The message that a new artifact is stored as, unless it has reserved properties. -/
def serializationOf (self : Execution) (artifact : ArtifactObject) (typeId : Int) :
    Except PyError Artifact :=
  let ser := { artifact.serialization with typeId := some typeId }
  if workspacePropertyName ∈ ser.customProperties then
    .error (.valueError "custom_properties contains reserved key %s" [.text workspacePropertyName])
  else if runPropertyName ∈ ser.customProperties then
    .error (.valueError "custom_properties contains reserved key %s" [.text runPropertyName])
  else .ok { ser with customProperties := placeProperties self ser.customProperties }

/-- Store an artifact object unless it is stored already; the variable is its id. -/
def Execution.log (self : Execution) (artifact : ArtifactObject) :
    Procedure api (Option Int) PyError Unit := do
  let type ← .lift (ExceptT.adapt
    (PyError.valueErrorFrom "invalid artifact type %s: exception %s" [.text artifact.typeName])
    (retry (.getType .artifact artifact.typeName)))
  match ← get with
  | some id => .lift (checkArtifactId id)
  | none =>
      let ser ← .lift (ofResult (serializationOf self artifact type.getId))
      let pbs ← .lift (retry (.getArtifactsByURI artifact.uri))
      match pbs.find? (artifact.isDuplicated ser) with
      | some pb => set (some (pb.id.getD 0))
      | none =>
          let ids ← .lift (retry (.putItems .artifact [ser]))
          let id ← .lift (ofResult (firstOf ids))
          -- From here on the object has its id, whether or not it gets attributed.
          set (some id)
          .lift (retry (.putAttributionsAndAssociations [⟨self.workspace.contextId, id⟩] []))

/-- Log an artifact object, then the event that links it to the execution. -/
def Execution.logAs (type : EventType) (self : Execution) (artifact : Option ArtifactObject) :
    Procedure api (Option Int) PyError Unit :=
  match artifact with
  | none => .lift (throw (.valueError "'artifact' must be set." []))
  | some artifact => do
      self.log artifact
      let id ← get
      .lift (retry (.putEvents [some ⟨id, self.id, type, none⟩]))

/-- Log an artifact object as an input. -/
def Execution.logInput (self : Execution) (artifact : Option ArtifactObject) :
    Procedure api (Option Int) PyError Unit := self.logAs .input artifact

/-- Log an artifact object as an output. -/
def Execution.logOutput (self : Execution) (artifact : Option ArtifactObject) :
    Procedure api (Option Int) PyError Unit := self.logAs .output artifact

/-! ## What successful calls do -/

section Runs

variable {σ : Type} {E : Effect api σ} {s t : σ} {l m : Option Int}

theorem runs_retry_ok (op : Call) {result : op.Result} :
    (retry op).run.Runs E s (.ok result) t ↔ E op s (.ok result) t := runs_callOr_ok op

theorem firstOf_ok {ids : List Int} {id : Int} :
    firstOf ids = .ok id ↔ ∃ rest, ids = id :: rest := by
  cases ids with
  | nil => simp [firstOf]
  | cons first rest => simp [firstOf, eq_comm]

theorem runs_checkArtifactId_ok {id : Int} :
    (checkArtifactId id).run.Runs E s (.ok ()) t ↔
      ∃ pbs, E (.getItemsByID .artifact [id]) s (.ok pbs) t ∧ pbs.length = 1 := by
  rw [checkArtifactId, Program.runs_run_bind_ok]
  apply Iff.intro
  · rintro ⟨pbs, u, hfind, hrest⟩
    have heffect := (runs_retry_ok (.getItemsByID .artifact [id])).mp
      (Program.runs_adapt_ok.mp hfind)
    by_cases hlength : pbs.length = 1
    · rw [if_pos hlength] at hrest
      obtain ⟨-, rfl⟩ := Program.runs_run_pure.mp hrest
      exact ⟨pbs, heffect, hlength⟩
    · rw [if_neg hlength] at hrest
      cases (Program.runs_run_throw.mp hrest).1
  · rintro ⟨pbs, heffect, hlength⟩
    refine ⟨pbs, t, Program.runs_adapt_ok.mpr ((runs_retry_ok _).mpr heffect), ?_⟩
    rw [if_pos hlength]
    exact Program.runs_run_pure.mpr ⟨rfl, rfl⟩

/-- A construction that returns has made three calls. -/
theorem runs_newExecution_ok {name : Option String} {workspace : Option Workspace}
    {run : Option Run} {description : Option String} {createTime : String} {e : Execution} :
    (newExecution name workspace run description createTime).run.Runs E s (.ok e) t →
      ∃ type id rest u v, E (.getType .execution executionTypeName) s (.ok type) u ∧
        E (.putItems .execution [e.serialized]) u (.ok (id :: rest)) v ∧
        E (.putAttributionsAndAssociations [] [⟨e.workspace.contextId, id⟩]) v (.ok ()) t ∧
        e.id = some id := by
  intro hrun
  match workspace, name with
  | none, _ => cases (Program.runs_run_throw.mp hrun).1
  | some workspace, none => cases (Program.runs_run_throw.mp hrun).1
  | some workspace, some name =>
      obtain ⟨type, u, htype, hrun⟩ := Program.runs_run_bind_ok.mp hrun
      obtain ⟨ids, v, hput, hrun⟩ := Program.runs_run_bind_ok.mp hrun
      obtain ⟨id, v', hfirst, hrun⟩ := Program.runs_run_bind_ok.mp hrun
      obtain ⟨hids, rfl⟩ := runs_ofResult.mp hfirst
      obtain ⟨rest, hrest⟩ := firstOf_ok.mp hids
      obtain ⟨_, t', hmembers, hrun⟩ := Program.runs_run_bind_ok.mp hrun
      obtain ⟨he, rfl⟩ := Program.runs_run_pure.mp hrun
      cases he
      rw [hrest] at hput
      exact ⟨type, id, rest, u, v, (runs_retry_ok _).mp htype, (runs_retry_ok _).mp hput,
        (runs_retry_ok _).mp hmembers, rfl⟩

/-- A construction puts no artifacts, and no types. -/
theorem uses_newExecution {name : Option String} {workspace : Option Workspace}
    {run : Option Run} {description : Option String} {createTime : String} :
    (newExecution name workspace run description createTime).run.Uses (I := api)
      (Call.Leaves .artifact) := by
  match workspace, name with
  | none, _ => exact Program.uses_run_throw _
  | some workspace, none => exact Program.uses_run_throw _
  | some workspace, some name =>
      apply (uses_callOr trivial).run_bind
      intro type
      apply (uses_callOr (show Kind.artifact ≠ Kind.execution by decide)).run_bind
      intro ids
      apply Program.Uses.run_bind (Program.uses_pure _)
      intro id
      apply (uses_callOr trivial).run_bind
      intro _
      exact Program.uses_run_pure _

/-- The exits of logging an artifact object: its id was set, a duplicate is stored, or it
is stored now. -/
inductive LogExit (E : Effect api σ) (self : Execution) (artifact : ArtifactObject) :
    σ → Option Int → σ → Option Int → Prop
  | known {s u t : σ} {type : TypeRecord} {id : Int} {pbs : List Artifact}
      (htype : E (.getType .artifact artifact.typeName) s (.ok type) u)
      (hcheck : E (.getItemsByID .artifact [id]) u (.ok pbs) t) (hone : pbs.length = 1) :
      LogExit E self artifact s (some id) t (some id)
  | duplicate {s u t : σ} {type : TypeRecord} {ser pb : Artifact} {pbs : List Artifact}
      (htype : E (.getType .artifact artifact.typeName) s (.ok type) u)
      (hser : serializationOf self artifact type.getId = .ok ser)
      (hlist : E (.getArtifactsByURI artifact.uri) u (.ok pbs) t)
      (hfound : pbs.find? (artifact.isDuplicated ser) = some pb) :
      LogExit E self artifact s none t (some (pb.id.getD 0))
  | stored {s u v x t : σ} {type : TypeRecord} {ser : Artifact} {pbs : List Artifact} {id : Int}
      {rest : List Int} (htype : E (.getType .artifact artifact.typeName) s (.ok type) u)
      (hser : serializationOf self artifact type.getId = .ok ser)
      (hlist : E (.getArtifactsByURI artifact.uri) u (.ok pbs) v)
      (hnone : pbs.find? (artifact.isDuplicated ser) = none)
      (hput : E (.putItems .artifact [ser]) v (.ok (id :: rest)) x)
      (hmember : E (.putAttributionsAndAssociations [⟨self.workspace.contextId, id⟩] []) x
        (.ok ()) t) :
      LogExit E self artifact s none t (some id)

/-- Logging that returns has taken one of the exits. -/
theorem logExit_of_runs {self : Execution} {artifact : ArtifactObject}
    (hrun : (self.log artifact).Runs E s l (.ok ()) t m) : LogExit E self artifact s l t m := by
  obtain ⟨type, u, hadapt, hrun⟩ := Procedure.runs_lift_bind_ok.mp hrun
  have htype := (runs_retry_ok (.getType .artifact _)).mp (Program.runs_adapt_ok.mp hadapt)
  have hrun := Procedure.runs_get_bind.mp hrun
  cases l with
  | some id =>
      obtain ⟨hcheck, rfl⟩ := Procedure.runs_lift.mp hrun
      obtain ⟨pbs, hpbs, hone⟩ := runs_checkArtifactId_ok.mp hcheck
      exact .known htype hpbs hone
  | none =>
      obtain ⟨ser, _, hresult, hrun⟩ := Procedure.runs_lift_bind_ok.mp hrun
      obtain ⟨hser, rfl⟩ := runs_ofResult.mp hresult
      obtain ⟨pbs, _, hretry, hrun⟩ := Procedure.runs_lift_bind_ok.mp hrun
      have hlist := (runs_retry_ok (.getArtifactsByURI _)).mp hretry
      cases hfound : pbs.find? (artifact.isDuplicated ser) with
      | some pb =>
          simp only [hfound] at hrun
          obtain ⟨-, rfl, rfl⟩ := Procedure.runs_set.mp hrun
          exact .duplicate htype hser hlist hfound
      | none =>
          simp only [hfound] at hrun
          obtain ⟨ids, _, hput, hrun⟩ := Procedure.runs_lift_bind_ok.mp hrun
          obtain ⟨id, _, hresult, hrun⟩ := Procedure.runs_lift_bind_ok.mp hrun
          obtain ⟨hid, rfl⟩ := runs_ofResult.mp hresult
          obtain ⟨rest, hrest⟩ := firstOf_ok.mp hid
          rw [hrest] at hput
          have hrun := Procedure.runs_set_bind.mp hrun
          obtain ⟨hmember, rfl⟩ := Procedure.runs_lift.mp hrun
          exact .stored htype hser hlist hfound ((runs_retry_ok _).mp hput)
            ((runs_retry_ok _).mp hmember)

/-- A logged artifact has its id, and the event is put last. -/
theorem runs_logAs_ok {type : EventType} {self : Execution} {artifact : ArtifactObject}
    (hrun : (self.logAs type (some artifact)).Runs E s l (.ok ()) t m) :
    ∃ u, LogExit E self artifact s l u m ∧
      E (.putEvents [some ⟨m, self.id, type, none⟩]) u (.ok ()) t := by
  obtain ⟨_, u, k, hlog, hrun⟩ := Procedure.runs_bind_ok.mp hrun
  have hrun := Procedure.runs_get_bind.mp hrun
  obtain ⟨hevent, rfl⟩ := Procedure.runs_lift.mp hrun
  exact ⟨u, logExit_of_runs hlog, (runs_retry_ok _).mp hevent⟩

theorem runs_log_known {self : Execution} {artifact : ArtifactObject} {id : Int}
    {r : Except PyError Unit} (hrun : (self.log artifact).Runs E s (some id) r t m) :
    m = some id := by
  rcases Procedure.runs_bind.mp hrun with ⟨e, -, hlift⟩ | ⟨type, u, k, hlift, hrest⟩
  · exact (Procedure.runs_lift.mp hlift).2.symm
  · obtain ⟨-, rfl⟩ := Procedure.runs_lift.mp hlift
    have hcheck := Procedure.runs_get_bind.mp hrest
    exact (Procedure.runs_lift.mp hcheck).2.symm

/-- An id that is set stays, whatever happens. -/
theorem runs_logAs_known {type : EventType} {self : Execution} {artifact : Option ArtifactObject}
    {id : Int} {r : Except PyError Unit}
    (hrun : (self.logAs type artifact).Runs E s (some id) r t m) : m = some id := by
  cases artifact with
  | none => exact (Procedure.runs_lift.mp hrun).2.symm
  | some artifact =>
      rcases Procedure.runs_bind.mp hrun with ⟨e, -, hlog⟩ | ⟨_, u, k, hlog, hrest⟩
      · exact runs_log_known hlog
      · obtain rfl := runs_log_known hlog
        have hevent := Procedure.runs_get_bind.mp hrest
        exact (Procedure.runs_lift.mp hevent).2.symm

end Runs

end KfMetadata.Sdk
