/-
# Logged attributes come back

The attributes of a logged object travel in two ways: some of them as properties, as far as
they are not empty, and all of them in one JSON text. Flattening puts them together again.
Properties come first, but they are texts of attributes, and what is missing among them is
in the JSON text; so every attribute has its value in the record, apart from the two that
the record has of its own.

The two functions of the JSON library are parameters. They are only taken to undo each
other on the object that is logged.
-/

import KfMetadata.Sdk.Flattening
import KfMetadata.Sdk.Session

namespace KfMetadata.Sdk

open Mlmd Remote

/-! ## Objects -/

/-- The attributes that the constructors of all classes set. -/
structure Fields where
  workspace : PyValue
  name : String
  description : Option String
  owner : Option String
  uri : String
  labels : PyValue
  createTime : String
  kwargs : List (String × PyValue)

structure DataSetFields extends Fields where
  version : Option String
  query : Option String

structure ModelFields extends Fields where
  version : Option String
  modelType : Option String
  trainingFramework : PyValue
  hyperparameters : PyValue

structure MetricsFields extends Fields where
  dataSetId : Option String
  modelId : Option String
  metricsType : Option String
  values : PyValue

/-- A text that may be missing, as a Python value. -/
def textValue : Option String → PyValue
  | none => PyValue.none
  | some text => .str text

/-- The attributes of a data set in the order in which they are set. An object is written
before it has an id. -/
def DataSetFields.dict (self : DataSetFields) : List (String × PyValue) :=
  [("workspace", self.workspace), ("name", .str self.name),
    ("description", textValue self.description), ("owner", textValue self.owner),
    ("uri", .str self.uri), ("version", textValue self.version), ("query", textValue self.query),
    ("labels", self.labels), ("id", .none), ("create_time", .str self.createTime),
    ("kwargs", .dict self.kwargs)]

def ModelFields.dict (self : ModelFields) : List (String × PyValue) :=
  [("workspace", self.workspace), ("name", .str self.name),
    ("description", textValue self.description), ("owner", textValue self.owner),
    ("uri", .str self.uri), ("version", textValue self.version),
    ("model_type", textValue self.modelType), ("training_framework", self.trainingFramework),
    ("hyperparameters", self.hyperparameters), ("labels", self.labels), ("id", .none),
    ("create_time", .str self.createTime), ("kwargs", .dict self.kwargs)]

def MetricsFields.dict (self : MetricsFields) : List (String × PyValue) :=
  [("workspace", self.workspace), ("name", .str self.name),
    ("description", textValue self.description), ("owner", textValue self.owner),
    ("uri", .str self.uri), ("data_set_id", textValue self.dataSetId),
    ("model_id", textValue self.modelId), ("metrics_type", textValue self.metricsType),
    ("values", self.values), ("labels", self.labels), ("id", .none),
    ("create_time", .str self.createTime), ("kwargs", .dict self.kwargs)]

/-- What the JSON library writes for a value. -/
abbrev Dumps : Type := PyValue → String

def DataSetFields.toDataSet (self : DataSetFields) (dumps : Dumps) : DataSet :=
  ⟨⟨self.uri, self.name, self.description, self.owner, self.version, self.createTime,
    dumps (.dict self.dict)⟩, self.query⟩

def ModelFields.toModel (self : ModelFields) (dumps : Dumps) : Model :=
  ⟨⟨self.uri, self.name, self.description, self.owner, self.version, self.createTime,
    dumps (.dict self.dict)⟩, self.modelType⟩

namespace Metrics

def artifactTypeName : String := "kubeflow.org/alpha/metrics"

/-- The attributes that are stored as properties of their own. -/
def properties (self : MetricsFields) : StringMap Value :=
  ((((((Finmap.singleton "name" (Value.string self.name)).insert
    "create_time" (.string self.createTime)).insert
    "description" (stringValue self.description)).insert
    "metrics_type" (stringValue self.metricsType)).insert
    "data_set_id" (stringValue self.dataSetId)).insert
    "model_id" (stringValue self.modelId)).insert
    "owner" (stringValue self.owner)

def serialization (self : MetricsFields) (dumps : Dumps) : Artifact where
  id := none
  typeId := none
  properties := delNoneProperties ((properties self).insert allMetaPropertyName
    (.string (dumps (.dict self.dict))))
  customProperties := ∅
  detail := some self.uri

/-- Metrics are never duplicates. -/
def isDuplicated (_ _ : Artifact) : Bool := false

end Metrics

/-- An object of one of the classes. -/
inductive LoggedObject
  | dataSet (self : DataSetFields)
  | model (self : ModelFields)
  | metrics (self : MetricsFields)

namespace LoggedObject

def dict : LoggedObject → List (String × PyValue)
  | .dataSet self => self.dict
  | .model self => self.dict
  | .metrics self => self.dict

/-- The object as an execution sees it. -/
def object (dumps : Dumps) : LoggedObject → ArtifactObject
  | .dataSet self => (Loggable.dataSet (self.toDataSet dumps)).object
  | .model self => (Loggable.model (self.toModel dumps)).object
  | .metrics self => ⟨Metrics.artifactTypeName, self.uri, Metrics.serialization self dumps,
      Metrics.isDuplicated⟩

end LoggedObject

/-! ## Properties are texts of attributes -/

/-- Every property is the text of the attribute of its name. -/
def Carries (dict : List (String × PyValue)) (properties : StringMap Value) : Prop :=
  ∀ name stored, properties.lookup name = some stored → name ∉ headerNames ∧
    ∃ text, stored = stringValue text ∧ dict.lookup name = some (textValue text)

variable {dict : List (String × PyValue)} {properties : StringMap Value}

theorem carries_singleton (name : String) (text : Option String) (hname : name ∉ headerNames)
    (hdict : dict.lookup name = some (textValue text)) :
    Carries dict (Finmap.singleton name (stringValue text)) := by
  intro other stored hstored
  have hsame : other = name :=
    (Finmap.mem_singleton _ _ _).mp (Finmap.mem_of_lookup_eq_some hstored)
  subst hsame
  rw [Finmap.lookup_singleton_eq] at hstored
  exact ⟨hname, text, (Option.some.inj hstored).symm, hdict⟩

theorem Carries.insert (hcarries : Carries dict properties) (name : String)
    (text : Option String) (hname : name ∉ headerNames)
    (hdict : dict.lookup name = some (textValue text)) :
    Carries dict (properties.insert name (stringValue text)) := by
  intro other stored hstored
  by_cases hsame : other = name
  · subst hsame
    rw [Finmap.lookup_insert] at hstored
    exact ⟨hname, text, (Option.some.inj hstored).symm, hdict⟩
  · rw [Finmap.lookup_insert_of_ne _ hsame] at hstored
    exact hcarries other stored hstored

/-- All classes have these three. -/
theorem carries_common (self : Fields)
    (hname : dict.lookup "name" = some (textValue (some self.name)))
    (htime : dict.lookup "create_time" = some (textValue (some self.createTime)))
    (hdescription : dict.lookup "description" = some (textValue self.description)) :
    Carries dict (((Finmap.singleton "name" (.string self.name)).insert
      "create_time" (.string self.createTime)).insert
      "description" (stringValue self.description)) := by
  have hfirst : Carries dict (Finmap.singleton "name" (.string self.name)) :=
    carries_singleton "name" (some self.name) (by decide) hname
  have hsecond := hfirst.insert "create_time" (some self.createTime) (by decide) htime
  exact hsecond.insert "description" self.description (by decide) hdescription

namespace LoggedObject

variable (x : LoggedObject) (dumps : Dumps)

/-- An object is stored with texts of its attributes, and with all of them in JSON. -/
theorem exists_properties : ∃ properties, Carries x.dict properties ∧
    (x.object dumps).serialization.properties =
      delNoneProperties (properties.insert allMetaPropertyName
        (.string (dumps (.dict x.dict)))) := by
  cases x with
  | dataSet self =>
      refine ⟨_, ?_, rfl⟩
      have hcommon : Carries self.dict _ := carries_common self.toFields rfl rfl rfl
      have hquery := hcommon.insert "query" self.query (by decide) rfl
      have hversion := hquery.insert "version" self.version (by decide) rfl
      exact hversion.insert "owner" self.owner (by decide) rfl
  | model self =>
      refine ⟨_, ?_, rfl⟩
      have hcommon : Carries self.dict _ := carries_common self.toFields rfl rfl rfl
      have htype := hcommon.insert "model_type" self.modelType (by decide) rfl
      have hversion := htype.insert "version" self.version (by decide) rfl
      exact hversion.insert "owner" self.owner (by decide) rfl
  | metrics self =>
      refine ⟨_, ?_, rfl⟩
      have hcommon : Carries self.dict _ := carries_common self.toFields rfl rfl rfl
      have htype := hcommon.insert "metrics_type" self.metricsType (by decide) rfl
      have hdataSet := htype.insert "data_set_id" self.dataSetId (by decide) rfl
      have hmodel := hdataSet.insert "model_id" self.modelId (by decide) rfl
      exact hmodel.insert "owner" self.owner (by decide) rfl

/-- The names of the attributes. -/
def keys : LoggedObject → List String
  | .dataSet _ => ["workspace", "name", "description", "owner", "uri", "version", "query",
      "labels", "id", "create_time", "kwargs"]
  | .model _ => ["workspace", "name", "description", "owner", "uri", "version", "model_type",
      "training_framework", "hyperparameters", "labels", "id", "create_time", "kwargs"]
  | .metrics _ => ["workspace", "name", "description", "owner", "uri", "data_set_id", "model_id",
      "metrics_type", "values", "labels", "id", "create_time", "kwargs"]

theorem map_fst_dict : x.dict.map Prod.fst = x.keys := by
  cases x with
  | dataSet self => rfl
  | model self => rfl
  | metrics self => rfl

/-- No attribute is set twice, and none has a name that is used for something else. -/
theorem keys_distinct : x.keys.Nodup ∧ "run" ∉ x.keys ∧ allMetaPropertyName ∉ x.keys := by
  cases x with
  | dataSet self =>
      simp only [keys]
      decide
  | model self =>
      simp only [keys]
      decide
  | metrics self =>
      simp only [keys]
      decide

variable {x}

theorem mem_keys {key : String} {value : PyValue} (hmem : (key, value) ∈ x.dict) :
    key ∈ x.keys := by
  rw [← map_fst_dict]
  exact List.mem_map_of_mem hmem

/-- Each attribute is found under its name. -/
theorem lookup_dict {key : String} {value : PyValue} (hmem : (key, value) ∈ x.dict) :
    x.dict.lookup key = some value := by
  have hnodup : (x.dict.map Prod.fst).Nodup := x.map_fst_dict ▸ x.keys_distinct.1
  obtain ⟨before, after, hsplit⟩ := List.append_of_mem hmem
  refine List.lookup_eq_some_iff.mpr ⟨before, after, hsplit, ?_⟩
  intro entry hentry
  rw [hsplit, List.map_append, List.map_cons] at hnodup
  have hdiffer := (List.nodup_append.mp hnodup).2.2 _ (List.mem_map_of_mem hentry) key
    List.mem_cons_self
  exact bne_iff_ne.mpr hdiffer.symm

end LoggedObject

/-! ## The record of an object -/

/-- The JSON library undoes itself on the object, and writes something for it. -/
structure Undone (dumps : Dumps) (loads : Loads) (x : LoggedObject) : Prop where
  loads_dumps : loads (dumps (.dict x.dict)) = .ok (.dict x.dict)
  written : dumps (.dict x.dict) ≠ ""

/-- The record has the attributes of the object, and where it was logged. -/
structure ComesBack (x : LoggedObject) (logger : Execution) (id : Int) (record : FlatRecord) :
    Prop where
  attributes : ∀ key value, (key, value) ∈ x.dict → key ≠ "id" → key ≠ "workspace" →
    record.lookup key = some value
  workspace : record.lookup "workspace" = some (.str logger.workspace.name)
  id : record.lookup "id" = some (.int id)
  run : ∀ run, logger.run = some run → record.lookup "run" = some (.str run.name)

/-- The message that an execution puts for an object. -/
def LoggedObject.message (x : LoggedObject) (dumps : Dumps) (typeId : Int)
    (self : Execution) : Artifact :=
  { (x.object dumps).serialization with
    typeId := some typeId
    customProperties := placeProperties self ∅ }

/-- What is stored of an object. -/
def LoggedObject.stored (x : LoggedObject) (dumps : Dumps) (typeId : Int) (self : Execution)
    (id : Int) : Artifact :=
  { x.message dumps typeId self with id := some id }

section Records

variable {x : LoggedObject} {dumps : Dumps} {loads : Loads} {self : Execution} {typeId id : Int}

variable (x dumps self typeId id) in
/-- What is stored are the attributes, and the JSON text of all of them. -/
theorem exists_properties_stored :
    ∃ properties, Carries x.dict properties ∧ (x.stored dumps typeId self id).properties =
      delNoneProperties (properties.insert allMetaPropertyName
        (.string (dumps (.dict x.dict)))) :=
  x.exists_properties dumps

/-- A property that is stored is the text of its attribute. -/
theorem lookup_stored {name : String} {stored : Value}
    (hname : name ≠ allMetaPropertyName)
    (hstored : (x.stored dumps typeId self id).properties.lookup name = some stored) :
    name ∉ headerNames ∧ x.dict.lookup name = some (.str stored.getString) := by
  obtain ⟨properties, hcarries, hsame⟩ := exists_properties_stored x dumps self typeId id
  rw [hsame, lookup_delNoneProperties, Finmap.lookup_insert_of_ne _ hname] at hstored
  obtain ⟨hentry, htrue⟩ := Option.filter_eq_some_iff.mp hstored
  obtain ⟨hheader, text, rfl, hdict⟩ := hcarries name stored hentry
  cases text with
  | none => cases htrue
  | some text => exact ⟨hheader, hdict⟩

/-- The JSON text is stored and read back. -/
theorem metaItems_stored (hundone : Undone dumps loads x) :
    MetaItems loads (x.stored dumps typeId self id) x.dict := by
  obtain ⟨properties, -, hsame⟩ := exists_properties_stored x dumps self typeId id
  have htrue : truthy (.string (dumps (.dict x.dict))) = true := by
    simpa [truthy] using hundone.written
  have hlookup : (x.stored dumps typeId self id).properties.lookup allMetaPropertyName =
      some (.string (dumps (.dict x.dict))) := by
    rw [hsame, lookup_delNoneProperties, Finmap.lookup_insert, Option.filter_some, if_pos htrue]
  simp only [MetaItems, hlookup]
  exact hundone.loads_dumps

theorem lookup_placeProperties_run (self : Execution) :
    (placeProperties self ∅).lookup runPropertyName =
      self.run.map fun run => .string run.name := by
  rw [placeProperties]
  cases self.run with
  | none => exact Finmap.lookup_insert_of_ne _ (by decide)
  | some run => exact Finmap.lookup_insert _

/-- What a record has of its own is no property. -/
theorem lookup_stored_header {name : String} (hheader : name ∈ headerNames)
    (hname : name ≠ allMetaPropertyName) :
    (x.stored dumps typeId self id).properties.lookup name = none := by
  apply Option.eq_none_iff_forall_ne_some.mpr
  intro stored hstored
  exact (lookup_stored hname hstored).1 hheader

/-- An attribute is found among the properties or, if it is none of them, in the JSON text. -/
theorem lookup_attribute {record : FlatRecord} {key : String} {value : PyValue}
    (hundone : Undone dumps loads x)
    (hflat : flat loads (some (x.stored dumps typeId self id)) = .ok record)
    (hmem : (key, value) ∈ x.dict) (hid : key ≠ "id") (hworkspace : key ≠ "workspace") :
    record.lookup key = some value := by
  have hkey := LoggedObject.mem_keys hmem
  have hdict := LoggedObject.lookup_dict hmem
  have hmeta : key ≠ allMetaPropertyName := fun heq => x.keys_distinct.2.2 (heq ▸ hkey)
  have hown : key ∉ headerNames := by
    have hrun : key ≠ "run" := fun heq => x.keys_distinct.2.1 (heq ▸ hkey)
    simp [headerNames, hid, hworkspace, hrun]
  rw [lookup_of_flat (metaItems_stored hundone) hflat hmeta, lookup_header_of_notMem hown,
    Option.or_none]
  cases hstored : (x.stored dumps typeId self id).properties.lookup key with
  | none => exact hdict
  | some stored => exact (lookup_stored hmeta hstored).2.symm.trans hdict

/-- **The record of an object.** Flattening what is stored gives back its attributes. -/
theorem flat_stored (hundone : Undone dumps loads x) :
    ∃ record, flat loads (some (x.stored dumps typeId self id)) = .ok record ∧
      ComesBack x self id record := by
  have hitems : MetaItems loads (x.stored dumps typeId self id) x.dict := metaItems_stored hundone
  have hflat := flat_eq_ok.mpr ⟨x.dict, hitems, rfl⟩
  refine ⟨_, hflat, ?_⟩
  constructor
  · intro key value hmem hid hworkspace
    exact lookup_attribute hundone hflat hmem hid hworkspace
  · rw [lookup_of_flat hitems hflat (by decide), lookup_stored_header (by decide) (by decide),
      lookup_header]
    simp only [LoggedObject.stored, LoggedObject.message, Loggable.lookup_placeProperties]
    rfl
  · rw [lookup_of_flat hitems hflat (by decide), lookup_stored_header (by decide) (by decide),
      lookup_header_id]
    rfl
  · intro run hrun
    rw [lookup_of_flat hitems hflat (by decide), lookup_stored_header (by decide) (by decide),
      lookup_header_run]
    simp only [LoggedObject.stored, LoggedObject.message, lookup_placeProperties_run, hrun]
    rfl

/-- No object has reserved properties. -/
theorem serializationOf_loggedObject :
    serializationOf self (x.object dumps) typeId = .ok (x.message dumps typeId self) := by
  have hcustom : (x.object dumps).serialization.customProperties = ∅ := by cases x <;> rfl
  rw [serializationOf, hcustom, if_neg Finmap.notMem_empty, if_neg Finmap.notMem_empty,
    LoggedObject.message]

/-- Logging that adds an artifact has stored the object, as an artifact of its type. -/
theorem stored_of_runs {E : Effect api Store} (hE : Lawful E) {s t : Store} {m : Option Int}
    (hrun : (self.log (x.object dumps)).Runs E s none (.ok ()) t m)
    (hadded : t.contents.items .artifact ≠ s.contents.items .artifact) :
    ∃ typeId id, m = some id ∧ x.stored dumps typeId self id ∈
      t.contents.itemsOfType .artifact (x.object dumps).typeName := by
  cases logExit_of_runs hrun with
  | @duplicate u _ type ser pb pbs htype hser hlist hfound =>
      have hu := hE.accepted (.getType ..) _ _ _ htype
      have ht := hE.accepted (.getArtifactsByURI _) _ _ _ hlist
      rw [ht.1, hu.1] at hadded
      exact absurd rfl hadded
  | @stored u v y _ type ser pbs id rest htype hser hlist hnone hput hmember =>
      obtain ⟨hu, hname⟩ := hE.accepted (.getType ..) _ _ _ htype
      have hv := (hE.accepted (.getArtifactsByURI _) _ _ _ hlist).1
      obtain ⟨stored, hstored, rfl⟩ := Option.map_eq_some_iff.mp hname
      obtain rfl := Except.ok.inj (hser.symm.trans serializationOf_loggedObject)
      have hfresh : (x.message dumps stored.id self).id = none := by cases x <;> rfl
      obtain ⟨id', hids, -, -, -, -, hy⟩ := (putItems_singleton hfresh).mp
        (hE.accepted (.putItems ..) _ _ _ hput)
      cases hids
      rw [hv, hu] at hy
      obtain ⟨-, -, ht⟩ := hE.accepted (.putAttributionsAndAssociations ..) _ _ _ hmember
      refine ⟨stored.id, id, rfl, ?_⟩
      have hitems : t.contents.itemsOfType .artifact (x.object dumps).typeName =
          y.contents.itemsOfType .artifact (x.object dumps).typeName := by
        rw [ht]
        rfl
      rw [hitems, hy, Contents.itemsOfType_addItem_of_type hstored rfl]
      exact List.mem_append_right _ List.mem_cons_self

/-- The list of the workspace has the record, as long as it can be computed. -/
theorem mem_listed {server : Server api Store} {typeName : Option String} {u : Store}
    {pbs : List Artifact} {a : Artifact} {record : FlatRecord} {records : List FlatRecord}
    {workspace : Workspace} (hreturns : Returns server typeName u pbs)
    (ha : a ∈ u.contents.itemsOfType .artifact (typeName.getD Model.artifactTypeName))
    (hflat : flat loads (some a) = .ok record)
    (hnames : record.lookup "workspace" = some (.str workspace.name))
    (hlisted : listed loads workspace server typeName u = .ok records) : record ∈ records := by
  rw [hreturns.listed_eq] at hlisted
  obtain ⟨all, hall, rfl⟩ := Fallible.foldlM_keep_eq_ok.mp hlisted
  rw [List.nil_append, List.mem_filter]
  exact ⟨Fallible.mem_of_mapM hall (hreturns.mem_iff.mpr ha) hflat, names_iff.mpr hnames⟩

/-- There is a list as soon as every artifact of the type can be flattened. -/
theorem listed_of_flat {server : Server api Store} {typeName : Option String} {u : Store}
    {pbs : List Artifact} {workspace : Workspace} (hreturns : Returns server typeName u pbs)
    (hflat : ∀ b ∈ u.contents.itemsOfType .artifact (typeName.getD Model.artifactTypeName),
      ∃ record, flat loads (some b) = .ok record) :
    ∃ records, listed loads workspace server typeName u = .ok records := by
  rw [hreturns.listed_eq]
  obtain ⟨all, hall⟩ := Fallible.exists_mapM_eq_ok.mpr fun b hb =>
    hflat b (hreturns.mem_iff.mp hb)
  exact ⟨_, Fallible.collect_eq_ok.mpr ⟨all, hall, rfl⟩⟩

/-- **Logged attributes come back.** An object that is stored as a new artifact has a record
with all its attributes. Wherever the artifact is stored so, its workspace lists the record
among those of its type, unless it lists none for another artifact of the type that cannot
be flattened. -/
theorem logged_comes_back {E : Effect api Store} (hE : Lawful E) (hundone : Undone dumps loads x)
    {s t : Store} {m : Option Int}
    (hrun : (self.log (x.object dumps)).Runs E s none (.ok ()) t m)
    (hadded : t.contents.items .artifact ≠ s.contents.items .artifact) :
    ∃ id a record, m = some id ∧ a.id = some id ∧
      a ∈ t.contents.itemsOfType .artifact (x.object dumps).typeName ∧
      flat loads (some a) = .ok record ∧ ComesBack x self id record ∧
      ∀ server u pbs, Returns server (some (x.object dumps).typeName) u pbs →
        a ∈ u.contents.itemsOfType .artifact (x.object dumps).typeName →
        (∀ records,
          listed loads self.workspace server (some (x.object dumps).typeName) u = .ok records →
          record ∈ records) ∧
        ((∀ b ∈ u.contents.itemsOfType .artifact (x.object dumps).typeName,
            ∃ other, flat loads (some b) = .ok other) →
          ∃ records,
            listed loads self.workspace server (some (x.object dumps).typeName) u =
              .ok records ∧ record ∈ records) := by
  obtain ⟨typeId, id, hm, hstored⟩ := stored_of_runs hE hrun hadded
  obtain ⟨record, hflat, hback⟩ := flat_stored hundone
  refine ⟨id, _, record, hm, rfl, hstored, hflat, hback, ?_⟩
  intro server u pbs hreturns ha
  have hmem : ∀ records,
      listed loads self.workspace server (some (x.object dumps).typeName) u = .ok records →
      record ∈ records := by
    intro records hlisted
    exact mem_listed hreturns ha hflat hback.workspace hlisted
  refine ⟨hmem, ?_⟩
  intro hall
  obtain ⟨records, hlisted⟩ := listed_of_flat hreturns hall
  exact ⟨records, hlisted, hmem records hlisted⟩

end Records

/-! ## An evaluation -/

/-- Metrics with an empty description, without an owner and with values. -/
def evaluation : MetricsFields where
  workspace := .none
  name := "eval"
  description := some ""
  owner := none
  uri := "gs://eval.csv"
  labels := .dict [("mylabel", .str "l1")]
  createTime := "2019-01-01T00:00:00Z"
  kwargs := [("note", .list [.int 1, .bool true])]
  dataSetId := some "123"
  modelId := none
  metricsType := some "validation"
  values := .dict [("accuracy", .float 0x3fee666666666666)]

/-- The JSON text of the evaluation. -/
def evaluationText : String :=
  "\x7b\"workspace\": null, \"name\": \"eval\", \"description\": \"\", \"owner\": null, " ++
    "\"uri\": \"gs://eval.csv\", \"data_set_id\": \"123\", \"model_id\": null, " ++
    "\"metrics_type\": \"validation\", \"values\": \x7b\"accuracy\": 0.95\x7d, " ++
    "\"labels\": \x7b\"mylabel\": \"l1\"\x7d, \"id\": null, " ++
    "\"create_time\": \"2019-01-01T00:00:00Z\", \"kwargs\": \x7b\"note\": [1, true]\x7d\x7d"

/-- Writes the evaluation. -/
def dumpsEvaluation : Dumps := fun _ => evaluationText

/-- Reads the evaluation back, and no other text. -/
def loadsEvaluation : Loads := fun text =>
  if text = evaluationText then .ok (.dict evaluation.dict)
  else .error "Expecting value: line 1 column 1 (char 0)"

/-- An execution of a run. -/
def nightly : Execution := { trainer with run := some ⟨"nightly"⟩ }

/-- A store with the type of metrics. -/
def withMetrics : Store :=
  let properties : StringMap PropertyType := (((((((Finmap.singleton "name" .string).insert
    "create_time" .string).insert "description" .string).insert "metrics_type" .string).insert
    "data_set_id" .string).insert "model_id" .string).insert "owner" .string).insert
    allMetaPropertyName .string
  ((call (.putType .artifact ⟨none, some Metrics.artifactTypeName, properties⟩
    ⟨false, false, true⟩)).run inMemory prepared.state).2

/-- The store after the evaluation is logged. -/
def withEvaluation : Store :=
  (((nightly.log ((LoggedObject.metrics evaluation).object dumpsEvaluation)).run.run none).run
    inMemory withMetrics).2

/-- What the store has of the type of metrics. -/
def storedMetrics : List Artifact :=
  withEvaluation.contents.itemsOfType .artifact Metrics.artifactTypeName

theorem returns_metrics :
    Returns inMemory (some Metrics.artifactTypeName) withEvaluation storedMetrics :=
  ⟨inMemory_available.toLawful, rfl⟩

/-- The workspace lists the evaluation, with its empty description and its values. -/
theorem logged_comes_back_evaluation : ∃ records record,
    listed loadsEvaluation nightly.workspace inMemory (some Metrics.artifactTypeName)
      withEvaluation = .ok records ∧ record ∈ records ∧
    ComesBack (.metrics evaluation) nightly 1 record ∧
    record.lookup "description" = some (.str "") ∧
    record.lookup "values" = some (.dict [("accuracy", .float 0x3fee666666666666)]) := by
  have hundone : Undone dumpsEvaluation loadsEvaluation (.metrics evaluation) :=
    ⟨if_pos rfl, by decide⟩
  have hrun : (nightly.log ((LoggedObject.metrics evaluation).object dumpsEvaluation)).Runs
      inMemory.effect withMetrics none (.ok ()) withEvaluation (some 1) :=
    Procedure.runs_of_run inMemory rfl
  have hbefore : withMetrics.contents.items .artifact = [] := rfl
  have hafter : (withEvaluation.contents.items .artifact).length = 1 := rfl
  have hadded : withEvaluation.contents.items .artifact ≠
      withMetrics.contents.items .artifact := by
    intro heq
    rw [heq, hbefore] at hafter
    cases hafter
  obtain ⟨id, a, record, hid, -, ha, hflat, hback, hlist⟩ :=
    logged_comes_back inMemory_available.toLawful hundone hrun hadded
  cases hid
  -- The evaluation is the only artifact of its type.
  have honly : ∀ b ∈ storedMetrics, ∃ other, flat loadsEvaluation (some b) = .ok other := by
    intro b hb
    have hsingle : storedMetrics.length = 1 := rfl
    obtain ⟨c, hc⟩ := List.length_eq_one_iff.mp hsingle
    have hac : a ∈ storedMetrics := ha
    rw [hc, List.mem_singleton] at hb hac
    rw [hb, ← hac]
    exact ⟨record, hflat⟩
  obtain ⟨records, hlisted, hmem⟩ := (hlist inMemory withEvaluation storedMetrics returns_metrics
    ha).2 honly
  exact ⟨records, record, hlisted, hmem, hback, hback.attributes "description" (.str "")
      (by simp [LoggedObject.dict, MetricsFields.dict, evaluation, textValue]) (by decide)
      (by decide),
    hback.attributes "values" _
      (by simp [LoggedObject.dict, MetricsFields.dict, evaluation]) (by decide) (by decide)⟩

end KfMetadata.Sdk
