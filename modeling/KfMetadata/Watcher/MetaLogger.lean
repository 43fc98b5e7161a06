/-
# Logging watched resources

A metadata logger records every added object of one kind of resource as an
artifact of the logger's own type, unless an artifact with the object's UID is
there already. The watcher calls it for one queued event after another and queues
an event again when the logger returns an error. What the logger needs of the
cluster's libraries is a parameter: how a resource kind is written, which objects
are resource objects, and how an object is serialized.
-/

import KfMetadata.Mlmd.Client

namespace KfMetadata.Watcher

open Mlmd Remote

/-- The group, version and kind of a resource. -/
structure GroupVersionKind where
  group : String
  version : String
  kind : String
  deriving DecidableEq, Repr

/-- What the getters of a resource object return; the time is in the printed form. -/
structure ObjectMeta where
  uid : String
  name : String
  selfLink : String
  creationTimestamp : String
  deriving DecidableEq, Repr

/-- The cluster's libraries, as far as the logger uses them. -/
structure Cluster (Object : Type) where
  /-- The text of the group and kind of a resource. -/
  groupKind : GroupVersionKind → String
  /-- The getters of an object that is a resource object. -/
  object : Object → Option ObjectMeta
  /-- The object in the tombstone of a deleted object of unknown final state. -/
  tombstone : Object → Option Object
  /-- The serialization of an object. -/
  marshal : Object → Except String String

variable {Object : Type} (cluster : Cluster Object)

/-- A logger: the resource it watches and the id of its artifact type. -/
structure MetaLogger where
  resource : GroupVersionKind
  typeID : Int

def workspace : String := "resource_watcher"

/-- The name of the artifact type of a resource. -/
def metadataArtifactType (resource : GroupVersionKind) : String :=
  "kubeflow.org/" ++ cluster.groupKind resource ++ "/" ++ resource.version

/-- The properties of a logger's artifact type. -/
def loggedProperties : StringMap PropertyType :=
  (((Finmap.singleton "name" PropertyType.string).insert "version" .string).insert
    "create_time" .string).insert "object" .string

/-- Create the artifact type of a resource, and a logger for it. -/
def newMetaLogger (gvk : GroupVersionKind) : Handler MetaLogger := do
  let typeID ← wrapError "failed to create artifact type: err = %v; request = %v; response = %v"
    [.text (metadataArtifactType cluster gvk)]
    (storeCall (.putType .artifact ⟨none, some (metadataArtifactType cluster gvk), loggedProperties⟩
      ⟨false, false, true⟩))
  return ⟨gvk, typeID⟩

/-- The object to log, which may come in a tombstone. -/
def decode (obj : Object) : Except GoError ObjectMeta :=
  match cluster.object obj with
  | some object => .ok object
  | none =>
      match cluster.tombstone obj with
      | none => .error (.text "error decoding object, invalid type")
      | some inner =>
          match cluster.object inner with
          | some object => .ok object
          | none => .error (.text "error decoding object tombstone, invalid type")

/-- The version that an artifact was logged under: the UID of its object. -/
def versionOf (a : Artifact) : String := getStringValue a.properties "version"

/-- Whether an artifact of the logger's type with this UID is stored. -/
def ifExists (l : MetaLogger) (uid : String) : Handler Bool := do
  let artifacts ← wrapError
    "failed to get list of artifacts for %s: err = %s, request = %v, response = %v"
    [.text (metadataArtifactType cluster l.resource)]
    (storeCall (.getItemsByType .artifact (metadataArtifactType cluster l.resource)))
  return artifacts.any fun artifact => versionOf artifact = uid

/-- The artifact that an object is logged as. -/
def loggedArtifact (l : MetaLogger) (object : ObjectMeta) (bytes : String) : Artifact where
  id := none
  typeId := some l.typeID
  properties := (((Finmap.singleton "name" (Value.string object.name)).insert
    "version" (.string object.uid)).insert
    "create_time" (.string object.creationTimestamp)).insert "object" (.string bytes)
  customProperties := Finmap.singleton "__kf_workspace__" (.string workspace)
  detail := some object.selfLink

/-- Marshal errors are passed on as they are. -/
def marshal (obj : Object) : Except GoError String := (cluster.marshal obj).mapError .text

/-- Log an added object, unless it is logged already. -/
def onAdd (l : MetaLogger) (obj : Object) : Handler Unit := do
  let object ← ofResult (decode cluster obj)
  let exist ← ifExists cluster l object.uid
  if exist then pure ()
  else do
    let bytes ← ofResult (marshal cluster obj)
    let _ ← storeCall (.putItems .artifact [loggedArtifact l object bytes])
    pure ()

/-! ## Events -/

inductive EventType
  | unknown
  | addEvent
  | updateEvent
  | deleteEvent
  deriving DecidableEq, Repr

/-- A queued event. -/
structure Event (Object : Type) where
  kind : EventType
  oldVal : Option Object
  newVal : Object

/-- The logger has nothing to do for updates. -/
def onUpdate (_l : MetaLogger) (_oldObj : Option Object) (_newObj : Object) : Handler Unit :=
  pure ()

/-- The logger has nothing to do for deletions. -/
def onDelete (_l : MetaLogger) (_obj : Object) : Handler Unit := pure ()

/-- Call the logger for an event; an unknown kind of event is passed over. -/
def handleEvent (l : MetaLogger) (e : Event Object) : Handler Unit :=
  match e.kind with
  | .addEvent => onAdd cluster l e.newVal
  | .updateEvent => onUpdate l e.oldVal e.newVal
  | .deleteEvent => onDelete l e.newVal
  | .unknown => pure ()

/-! ## The version of a logged artifact -/

@[simp]
theorem versionOf_loggedArtifact (l : MetaLogger) (object : ObjectMeta) (bytes : String) :
    versionOf (loggedArtifact l object bytes) = object.uid := by
  simp [versionOf, getStringValue, loggedArtifact, Finmap.lookup_insert_of_ne, Value.getString]

end KfMetadata.Watcher
