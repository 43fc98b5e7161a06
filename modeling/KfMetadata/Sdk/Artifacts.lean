/-
# Models and data sets

The client brings two classes of artifacts whose objects may be duplicates of each
other. An object is stored as a message of its attributes, of which those that are
missing or empty are left out, and two messages stand for the same artifact when they
agree on a few fields. So what an artifact is to the client is a key: its type, its
address, its name and version, which are empty when they are missing, and the workspace
that it was logged in.
-/

import KfMetadata.Sdk.Metadata

namespace KfMetadata.Sdk

open Mlmd

def allMetaPropertyName : String := "__ALL_META__"

/-! ## The classes -/

/-- The attributes that both classes have and store as properties. -/
structure Attributes where
  uri : String
  name : String
  description : Option String
  owner : Option String
  version : Option String
  createTime : String
  /-- All attributes written as JSON, with those that are stored nowhere else. An object
  that cannot be written so raises an exception before anything is stored. -/
  allMeta : String

structure DataSet extends Attributes where
  query : Option String

structure Model extends Attributes where
  modelType : Option String

/-- The message of an artifact with an attribute that only its class has. -/
def Attributes.serialization (self : Attributes) (ownName : String) (own : Option String) :
    Artifact where
  id := none
  typeId := none
  properties := delNoneProperties (((((((Finmap.singleton "name" (Value.string self.name)).insert
    "create_time" (.string self.createTime)).insert
    "description" (stringValue self.description)).insert
    ownName (stringValue own)).insert
    "version" (stringValue self.version)).insert
    "owner" (stringValue self.owner)).insert
    allMetaPropertyName (.string self.allMeta))
  customProperties := ∅
  detail := some self.uri

/-- Whether two messages agree on type, address, name, version and workspace. -/
def agree (a b : Artifact) : Bool :=
  a.typeId.getD 0 = b.typeId.getD 0 ∧ a.uri.getD "" = b.uri.getD "" ∧
    a.properties.lookup "name" = b.properties.lookup "name" ∧
    a.properties.lookup "version" = b.properties.lookup "version" ∧
    a.customProperties.lookup workspacePropertyName =
      b.customProperties.lookup workspacePropertyName

def DataSet.artifactTypeName : String := "kubeflow.org/alpha/data_set"

def DataSet.serialization (self : DataSet) : Artifact :=
  self.toAttributes.serialization "query" self.query

def DataSet.isDuplicated (a b : Artifact) : Bool := agree a b

def Model.artifactTypeName : String := "kubeflow.org/alpha/model"

def Model.serialization (self : Model) : Artifact :=
  self.toAttributes.serialization "model_type" self.modelType

def Model.isDuplicated (a b : Artifact) : Bool := agree a b

/-- An object of one of the two classes. -/
inductive Loggable
  | dataSet (self : DataSet)
  | model (self : Model)

namespace Loggable

def attributes : Loggable → Attributes
  | .dataSet self => self.toAttributes
  | .model self => self.toAttributes

/-- The object as an execution sees it. -/
def object : Loggable → ArtifactObject
  | .dataSet self =>
      ⟨DataSet.artifactTypeName, self.uri, self.serialization, DataSet.isDuplicated⟩
  | .model self => ⟨Model.artifactTypeName, self.uri, self.serialization, Model.isDuplicated⟩

@[simp]
theorem isDuplicated_object (x : Loggable) : x.object.isDuplicated = agree := by
  cases x <;> rfl

@[simp]
theorem uri_object (x : Loggable) : x.object.uri = x.attributes.uri := by
  cases x <;> rfl

end Loggable

/-! ## Keys -/

/-- What an artifact is to the client. -/
structure Key where
  typeId : Int
  uri : String
  name : String
  version : String
  workspace : Option Value
  deriving DecidableEq

/-- The key of a message, where a name or a version that is missing is empty. -/
def keyOf (a : Artifact) : Key :=
  ⟨a.typeId.getD 0, a.uri.getD "", getStringValue a.properties "name",
    getStringValue a.properties "version", a.customProperties.lookup workspacePropertyName⟩

/-- The key of an object that an execution logs as an artifact of a type. -/
def Loggable.key (x : Loggable) (typeId : Int) (self : Execution) : Key :=
  ⟨typeId, x.attributes.uri, x.attributes.name, x.attributes.version.getD "",
    some (.string self.workspace.name)⟩

/-- Duplicates have one key. -/
theorem keyOf_eq_of_agree {a b : Artifact} (hagree : agree a b = true) : keyOf a = keyOf b := by
  obtain ⟨htype, huri, hname, hversion, hworkspace⟩ := of_decide_eq_true hagree
  simp only [keyOf, getStringValue, htype, huri, hname, hversion, hworkspace]

/-! ## Messages of the two classes -/

/-- A property that is a text and not an empty one, if it is there. -/
def IsTidy (value : Option Value) : Prop :=
  ∀ v, value = some v → ∃ text, v = .string text ∧ text ≠ ""

/-- An address is there, and a name and a version are missing when they are empty. -/
structure Tidy (a : Artifact) : Prop where
  uri : a.uri.isSome
  name : IsTidy (a.properties.lookup "name")
  version : IsTidy (a.properties.lookup "version")

/-- Tidy properties are told apart by their texts. -/
theorem IsTidy.eq_of_text {value value' : Option Value} (hvalue : IsTidy value)
    (hvalue' : IsTidy value')
    (htext : (value.map Value.getString).getD "" = (value'.map Value.getString).getD "") :
    value = value' := by
  cases value with
  | none =>
      cases value' with
      | none => rfl
      | some v' =>
          obtain ⟨text, rfl, hne⟩ := hvalue' v' rfl
          exact absurd htext.symm hne
  | some v =>
      obtain ⟨text, rfl, hne⟩ := hvalue v rfl
      cases value' with
      | none => exact absurd htext hne
      | some v' =>
          obtain ⟨text', rfl, -⟩ := hvalue' v' rfl
          exact congrArg (fun t => some (Value.string t)) htext

/-- Tidy messages of one key are duplicates. -/
theorem Tidy.agree {a b : Artifact} (ha : Tidy a) (hb : Tidy b) (hkey : keyOf a = keyOf b) :
    agree a b = true := by
  obtain ⟨htype, huri, hname, hversion, hworkspace⟩ := Key.mk.inj hkey
  exact decide_eq_true ⟨htype, huri, ha.name.eq_of_text hb.name hname,
    ha.version.eq_of_text hb.version hversion, hworkspace⟩

/-- Only properties with a value that is true are kept. -/
theorem lookup_delNoneProperties (properties : StringMap Value) (name : String) :
    (delNoneProperties properties).lookup name = (properties.lookup name).filter truthy := by
  rw [delNoneProperties, StringMap.lookup_filterMap]
  cases properties.lookup name with
  | none => rfl
  | some value => rfl

/-- A text that is kept when it is true is tidy. -/
theorem isTidy_filter (text : Option String) :
    IsTidy ((some (stringValue text)).filter truthy) := by
  intro v hv
  obtain ⟨hvalue, htrue⟩ := Option.filter_eq_some_iff.mp hv
  cases hvalue
  cases text with
  | none => cases htrue
  | some text => exact ⟨text, rfl, by simpa [stringValue, truthy] using htrue⟩

/-- Its text is what it was, or empty. -/
theorem getString_filter (text : Option String) :
    (((some (stringValue text)).filter truthy).map Value.getString).getD "" = text.getD "" := by
  cases text with
  | none => rfl
  | some text =>
      by_cases hempty : text = ""
      · rw [hempty]
        rfl
      · simp [stringValue, Option.filter, truthy, hempty, Value.getString]

namespace Attributes

variable (self : Attributes) {ownName : String} (own : Option String)

theorem lookup_name (hown : ownName ≠ "name") :
    (self.serialization ownName own).properties.lookup "name" =
      (some (stringValue (some self.name))).filter truthy := by
  rw [serialization, lookup_delNoneProperties]
  simp [Finmap.lookup_insert_of_ne, hown.symm, allMetaPropertyName, stringValue]

theorem lookup_version :
    (self.serialization ownName own).properties.lookup "version" =
      (some (stringValue self.version)).filter truthy := by
  rw [serialization, lookup_delNoneProperties]
  simp [Finmap.lookup_insert_of_ne, allMetaPropertyName]

end Attributes

namespace Loggable

variable (x : Loggable)

/-- Both classes write their attributes, with one more under a name of their own. -/
theorem exists_serialization : ∃ ownName own, ownName ≠ "name" ∧
    x.object.serialization = x.attributes.serialization ownName own := by
  cases x with
  | dataSet self => exact ⟨"query", self.query, by decide, rfl⟩
  | model self => exact ⟨"model_type", self.modelType, by decide, rfl⟩

/-- What is stored of an object: its attributes, and where it was logged. -/
def stored (typeId : Int) (self : Execution) : Artifact :=
  { x.object.serialization with
    typeId := some typeId
    customProperties := placeProperties self ∅ }

/-- No object has reserved properties. -/
theorem serializationOf_object (typeId : Int) (self : Execution) :
    serializationOf self x.object typeId = .ok (x.stored typeId self) := by
  have hcustom : x.object.serialization.customProperties = ∅ := by cases x <;> rfl
  rw [serializationOf, hcustom, if_neg Finmap.notMem_empty, if_neg Finmap.notMem_empty, stored]

theorem tidy_stored (typeId : Int) (self : Execution) : Tidy (x.stored typeId self) := by
  obtain ⟨ownName, own, hown, hser⟩ := x.exists_serialization
  have hproperties : (x.stored typeId self).properties =
      (x.attributes.serialization ownName own).properties := by rw [stored, hser]
  constructor
  · cases x <;> rfl
  · rw [hproperties, Attributes.lookup_name _ _ hown]
    exact isTidy_filter (some x.attributes.name)
  · rw [hproperties, Attributes.lookup_version]
    exact isTidy_filter x.attributes.version

/-- The workspace is not hidden by the run. -/
theorem lookup_placeProperties (self : Execution) :
    (placeProperties self ∅).lookup workspacePropertyName =
      some (.string self.workspace.name) := by
  rw [placeProperties]
  cases self.run with
  | none => exact Finmap.lookup_insert _
  | some run =>
      show ((Finmap.insert workspacePropertyName _ ∅).insert runPropertyName _).lookup _ = _
      rw [Finmap.lookup_insert_of_ne _ (by decide), Finmap.lookup_insert]

/-- An object is stored under its key. -/
theorem keyOf_stored (typeId : Int) (self : Execution) :
    keyOf (x.stored typeId self) = x.key typeId self := by
  obtain ⟨ownName, own, hown, hser⟩ := x.exists_serialization
  have hproperties : (x.stored typeId self).properties =
      (x.attributes.serialization ownName own).properties := by rw [stored, hser]
  have huri : (x.stored typeId self).uri = some x.attributes.uri := by cases x <;> rfl
  rw [keyOf, key, Key.mk.injEq]
  refine ⟨rfl, by rw [huri]; rfl, ?_, ?_, lookup_placeProperties self⟩
  · rw [getStringValue, hproperties, Attributes.lookup_name _ _ hown]
    exact getString_filter (some x.attributes.name)
  · rw [getStringValue, hproperties, Attributes.lookup_version]
    exact getString_filter x.attributes.version

end Loggable

end KfMetadata.Sdk
