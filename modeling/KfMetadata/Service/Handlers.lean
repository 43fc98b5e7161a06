/-
# The handlers of the metadata service

Each handler is a program of store calls that stops at the first error. The
artifact and the execution handlers differ in names and texts only, so each pair
is one definition over `Resource`, applied to the resource under the handler's
own name. Fields that a protocol buffer leaves unset are `none`; the getters give
them their defaults. Logging is left out.
-/

import KfMetadata.Service.Names

namespace KfMetadata.Service

open Mlmd Remote

/-! ## Types -/

/-- A type is looked up by its name with or without the collection in front. -/
def getType (r : Resource) (name : String) : Handler TypeRecord :=
  storeCall (.getType r.kind (Text.trimPrefix name r.typesCollection))

/-- Put a type and read it back. -/
def putType (r : Resource) (opts : PutTypeOptions) : Option TypeRecord → Handler TypeRecord
  | none => throw (.text ("no " ++ r.title ++ "Type specified"))
  | some type => do
      let _ ← storeCall (.putType r.kind type opts)
      getType r type.getName

/-- The options of the create handlers. -/
def createOptions : PutTypeOptions where
  canAddFields := false
  canDeleteFields := false
  allFieldsMustMatch := true

/-- The options of the update handlers. -/
def updateOptions : PutTypeOptions where
  canAddFields := true
  canDeleteFields := false
  allFieldsMustMatch := true

def listTypes (r : Resource) : Handler (List TypeRecord) := storeCall (.getTypes r.kind)

def notImplemented (name : String) : Handler Unit :=
  throw (.text ("not implemented error: " ++ name))

/-! ## Artifacts and executions -/

/-- The message when one id does not have exactly one stored record. -/
def Resource.notSingleStored : Resource → String
  | .artifact => "internal error: expecting single new Artifact id, got instead : %v"
  | .execution => "internal error: expecting single Execution, got instead : %v"

/-- The record of a lookup that must have found exactly one. -/
def onlyItem (r : Resource) (notSingle : String) : List (Item r.kind) → Handler (Item r.kind)
  | [item] => pure item
  | items => throw (.errorf notSingle [.items r.kind items])

/-- The record of an instance name; only the id in the name is looked up. -/
def getStored (r : Resource) (name : String) : Handler (Item r.kind) := do
  let id ← ofResult (parseInstanceName r name)
  let items ← storeCall (.getItemsByID r.kind [id])
  onlyItem r r.notSingleStored items

/-- Resolve the parent's type, put the record with that type, and read it back
by the name it gets. -/
def createItem (r : Resource) (parent : String) :
    Option (Item r.kind) → Handler (Item r.kind)
  | none => throw (.text ("unspecified " ++ r.title))
  | some item =>
      if item.id.isSome then
        throw (.text ("id should remain unspecified when creating " ++ r.title))
      else do
        let type ← wrapError ("failed to resolve " ++ r.title ++ "Type under %q: %v")
          [.text parent] (getType r parent)
        let ids ← storeCall (.putItems r.kind [{ item with typeId := some type.getId }])
        match ids with
        | [id] => getStored r (instanceName r parent id)
        | _ => throw (.errorf ("internal error: expecting single new " ++ r.title ++
            " id, got instead : %v") [.ids ids])

/-- All records, or those of one type; finding none is no error. -/
def listItems (r : Resource) (name : String) : Handler (List (Item r.kind)) :=
  let lookup : Program api (Except String (List (Item r.kind))) :=
    if name = "" then call (.getItems r.kind)
    else call (.getItemsByType r.kind (Text.trimPrefix name r.typesCollection))
  ExceptT.mk (lookup >>= fun
    | .ok items => pure (.ok items)
    | .error message =>
        if message = "Cannot find any record" then pure (.ok [])
        else pure (.error (.text message)))

/-! ## Events -/

/-- The records that events refer to, by id; each id is looked up once. -/
def getInEvents (r : Resource) (notSingle : String) (idOf : Event → Int) :
    List Event → Finmap (fun _ : Int => Item r.kind) → Handler (Finmap fun _ : Int => Item r.kind)
  | [], results => pure results
  | e :: events, results =>
      if idOf e ∈ results then getInEvents r notSingle idOf events results
      else do
        let items ← storeCall (.getItemsByID r.kind [idOf e])
        let item ← onlyItem r notSingle items
        getInEvents r notSingle idOf events (results.insert (idOf e) item)

def getArtifactsInEvents (events : List Event) : Handler (Finmap fun _ : Int => Artifact) :=
  getInEvents .artifact "internal error: expecting single new Artifact id, got instead : %v"
    (fun e => e.artifactId.getD 0) events ∅

def getExecutionsInEvents (events : List Event) : Handler (Finmap fun _ : Int => Execution) :=
  getInEvents .execution "internal error: expecting single new execution id, got instead : %v"
    (fun e => e.executionId.getD 0) events ∅

/-- Events together with the records they refer to. -/
structure EventList where
  events : List Event
  artifacts : Finmap fun _ : Int => Artifact
  executions : Finmap fun _ : Int => Execution

def createEvent (event : Option Event) : Handler Unit := storeCall (.putEvents [event])

/-- The id after the collection in the name of an event list. -/
def parseEventsName (name lead : String) : Except GoError Int :=
  match Text.parseInt64 (Text.trimPrefix name lead) with
  | .ok id => .ok id
  | .error reason =>
      .error (.wrapf "failed to parse Artifact id from %q: %v" [.text name]
        (.number (Text.trimPrefix name lead) reason))

/-- Look events up; an error of the store leaves no events. -/
def eventsOrNone (op : Call) (events : op.Result → List Event) : Handler (List Event) :=
  ExceptT.mk (call op >>= fun
    | .ok result => pure (.ok (events result))
    | .error _ => pure (.ok []))

/-- The events under a name: of an artifact, or else of an execution. -/
def namedEvents (name : String) : Handler (List Event) :=
  if Text.hasPrefix name artifactCollection then do
    let id ← ofResult (parseEventsName name artifactCollection)
    eventsOrNone (.getEventsByArtifactIDs [id]) fun result => result
  else do
    let id ← ofResult (parseEventsName name executionCollection)
    eventsOrNone (.getEventsByExecutionIDs [id]) fun result => result

/-- The events of an artifact or an execution and the records at their ends. The
error of the event lookup is assigned to a variable of an inner scope and never
looked at. -/
def listEvents (name : String) : Handler EventList := do
  let events ← namedEvents name
  let artifacts ← wrapError "failed to get artifacts in events: %v" []
    (getArtifactsInEvents events)
  let executions ← wrapError "failed to get executions in events: %v" []
    (getExecutionsInEvents events)
  return ⟨events, artifacts, executions⟩

/-! ## The handlers by name -/

def createArtifactType (type : Option TypeRecord) : Handler TypeRecord :=
  putType .artifact createOptions type

def updateArtifactType (type : Option TypeRecord) : Handler TypeRecord :=
  putType .artifact updateOptions type

def getArtifactType (name : String) : Handler TypeRecord := getType .artifact name

def listArtifactTypes : Handler (List TypeRecord) := listTypes .artifact

def deleteArtifactType (_name : String) : Handler Unit := notImplemented "DeleteArtifactType"

def createArtifact (parent : String) (artifact : Option Artifact) : Handler Artifact :=
  createItem .artifact parent artifact

def getArtifact (name : String) : Handler Artifact := getStored .artifact name

def listArtifacts (name : String) : Handler (List Artifact) := listItems .artifact name

def deleteArtifact (_name : String) : Handler Unit := notImplemented "DeleteArtifact"

def createExecutionType (type : Option TypeRecord) : Handler TypeRecord :=
  putType .execution createOptions type

def updateExecutionType (type : Option TypeRecord) : Handler TypeRecord :=
  putType .execution updateOptions type

def getExecutionType (name : String) : Handler TypeRecord := getType .execution name

def listExecutionTypes : Handler (List TypeRecord) := listTypes .execution

def deleteExecutionType (_name : String) : Handler Unit := notImplemented "DeleteExecutionType"

def createExecution (parent : String) (execution : Option Execution) : Handler Execution :=
  createItem .execution parent execution

def getExecution (name : String) : Handler Execution := getStored .execution name

def listExecutions (name : String) : Handler (List Execution) := listItems .execution name

def deleteExecution (_name : String) : Handler Unit := notImplemented "DeleteExecution"

/-! ## Requests -/

/-- A request to the service. -/
inductive Request
  | createArtifactType (type : Option TypeRecord)
  | updateArtifactType (type : Option TypeRecord)
  | getArtifactType (name : String)
  | listArtifactTypes
  | deleteArtifactType (name : String)
  | createArtifact (parent : String) (artifact : Option Artifact)
  | getArtifact (name : String)
  | listArtifacts (name : String)
  | deleteArtifact (name : String)
  | createExecutionType (type : Option TypeRecord)
  | updateExecutionType (type : Option TypeRecord)
  | getExecutionType (name : String)
  | listExecutionTypes
  | deleteExecutionType (name : String)
  | createExecution (parent : String) (execution : Option Execution)
  | getExecution (name : String)
  | listExecutions (name : String)
  | deleteExecution (name : String)
  | createEvent (event : Option Event)
  | listEvents (name : String)

/-- What a request is answered with. -/
abbrev Request.Response : Request → Type
  | .createArtifactType _ | .updateArtifactType _ | .getArtifactType _ => TypeRecord
  | .createExecutionType _ | .updateExecutionType _ | .getExecutionType _ => TypeRecord
  | .listArtifactTypes | .listExecutionTypes => List TypeRecord
  | .createArtifact _ _ | .getArtifact _ => Artifact
  | .createExecution _ _ | .getExecution _ => Execution
  | .listArtifacts _ => List Artifact
  | .listExecutions _ => List Execution
  | .deleteArtifactType _ | .deleteArtifact _ => Unit
  | .deleteExecutionType _ | .deleteExecution _ => Unit
  | .createEvent _ => Unit
  | .listEvents _ => EventList

/-- The handler of a request. -/
def handle : (request : Request) → Handler request.Response
  | .createArtifactType type => createArtifactType type
  | .updateArtifactType type => updateArtifactType type
  | .getArtifactType name => getArtifactType name
  | .listArtifactTypes => listArtifactTypes
  | .deleteArtifactType name => deleteArtifactType name
  | .createArtifact parent artifact => createArtifact parent artifact
  | .getArtifact name => getArtifact name
  | .listArtifacts name => listArtifacts name
  | .deleteArtifact name => deleteArtifact name
  | .createExecutionType type => createExecutionType type
  | .updateExecutionType type => updateExecutionType type
  | .getExecutionType name => getExecutionType name
  | .listExecutionTypes => listExecutionTypes
  | .deleteExecutionType name => deleteExecutionType name
  | .createExecution parent execution => createExecution parent execution
  | .getExecution name => getExecution name
  | .listExecutions name => listExecutions name
  | .deleteExecution name => deleteExecution name
  | .createEvent event => createEvent event
  | .listEvents name => listEvents name

end KfMetadata.Service
