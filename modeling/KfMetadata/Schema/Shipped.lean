/-
# The shipped schemas

The directory of schemas that the server registers by default: entities, and the
artifacts, executions and workspaces that extend them. Four of its schemas define a
type that is registered; the others are extended only, or are of a category that the
store has no types for. What is registered does not depend on the order in which the
schemas are visited, and stays registered while the store grows, possibly with further
properties.
-/

import KfMetadata.Schema.Restart

namespace KfMetadata.Schema

open Mlmd Service Remote Remote.Program

/-! ## The schemas -/

/-- A text without a constant value. -/
def anyText : Declaration := ⟨.name stringType, ""⟩

/-- A constant that is declared without a type. -/
def untypedConstant (text : String) : Declaration := ⟨.absent, text⟩

def anyObject : Declaration := ⟨.name objectType, ""⟩

def anyArray : Declaration := ⟨.name "array", ""⟩

/-- The properties of a list, by their names. -/
def declared (properties : List (String × Declaration)) : StringMap Declaration :=
  properties.foldl (fun m p => m.insert p.1 p.2) ∅

def schemaRoot : String := "http://github.com/kubeflow/metadata/schema/alpha/"

def entitySchema : SchemaJSON where
  id := schemaRoot ++ "entity.json"
  properties := declared
    [("annotations", anyObject), ("apiversion", anyText), ("category", anyText),
      ("create_time", anyText), ("description", anyText), ("id", anyText), ("kind", anyText),
      ("name", anyText), ("namespace", anyText), ("owner", anyText)]
  allOf := []

/-- A schema that extends another one by some properties. -/
def extending (id base : String) (properties : List (String × Declaration)) : SchemaJSON where
  id := schemaRoot ++ id
  properties := ∅
  allOf := [⟨some (schemaRoot ++ base), ∅⟩, ⟨none, declared properties⟩]

def artifactSchema : SchemaJSON := extending "artifacts/artifact.json" "entity.json"
  [("category", untypedConstant "artifact"), ("uri", anyText), ("version", anyText)]

def dataSetSchema : SchemaJSON := extending "artifacts/data_set.json" "artifacts/artifact.json"
  [("kind", untypedConstant "data_set"), ("namespace", untypedConstant "kubeflow.org"),
    ("query", anyText), ("apiversion", untypedConstant "alpha")]

def executableSchema : SchemaJSON := extending "artifacts/executable.json" "entity.json"
  [("category", untypedConstant "artifact"), ("input_type", anyArray), ("output_type", anyArray)]

def metricsSchema : SchemaJSON := extending "artifacts/metrics.json" "artifacts/artifact.json"
  [("apiversion", constantText "alpha"), ("kind", constantText "metrics"),
    ("namespace", constantText "kubeflow.org"), ("model_id", anyText), ("data_set_id", anyText),
    ("metrics_type", anyText), ("values", anyObject)]

def modelSchemaJSON : SchemaJSON := extending "artifacts/model.json" "artifacts/artifact.json"
  [("apiversion", constantText "alpha"), ("hyperparameters", anyObject),
    ("kind", constantText "model"), ("model_type", anyText),
    ("namespace", constantText "kubeflow.org"), ("training_framework", anyObject)]

def workspaceSchema : SchemaJSON := extending "containers/workspace.json" "entity.json"
  [("category", constantText "container"), ("apiversion", constantText "alpha"),
    ("kind", constantText "workspace"), ("namespace", constantText "kubeflow.org")]

def executionSchema : SchemaJSON := extending "execution.json" "entity.json"
  [("apiversion", untypedConstant "alpha"), ("category", untypedConstant "execution"),
    ("configuration", anyObject), ("executable_id", anyText),
    ("kind", untypedConstant "execution"), ("namespace", untypedConstant "kubeflow.org")]

/-- The schemas in the order of their files. -/
def shippedSchemas : List SchemaJSON :=
  [artifactSchema, dataSetSchema, executableSchema, metricsSchema, modelSchemaJSON,
    workspaceSchema, entitySchema, executionSchema]

/-- The set that loading the directory yields. -/
def shipped : SchemaSet := shippedSchemas.foldl (fun ss schema => ss.insert schema.id schema) ∅

theorem mem_shipped {id : String} : id ∈ shipped ↔ ∃ schema ∈ shippedSchemas, schema.id = id := by
  have hfold : ∀ (schemas : List SchemaJSON) (ss : SchemaSet),
      id ∈ schemas.foldl (fun ss schema => ss.insert schema.id schema) ss ↔
        (∃ schema ∈ schemas, schema.id = id) ∨ id ∈ ss := by
    intro schemas
    induction schemas with
    | nil => simp
    | cons schema schemas ih =>
        intro ss
        rw [List.foldl_cons, ih, Finmap.mem_insert]
        simp only [List.mem_cons, exists_eq_or_imp, eq_comm (a := id)]
        rw [or_left_comm, or_assoc]
  rw [shipped, hfold, or_iff_left Finmap.notMem_empty]

/-! ## The types that they define -/

/-- A type whose properties are all texts. -/
def textType (name : String) (properties : List String) : TypeRecord where
  id := none
  name := some name
  properties := properties.foldl (fun m p => m.insert p .string) ∅

/-- The properties of every type. -/
def entityProperties : List String :=
  [wholeMetaPropertyName, "create_time", "description", "name", "owner"]

def dataSetType : TypeRecord :=
  textType "kubeflow.org/alpha/data_set" ("query" :: "version" :: entityProperties)

def metricsType : TypeRecord := textType "kubeflow.org/alpha/metrics"
  ("data_set_id" :: "metrics_type" :: "model_id" :: "version" :: entityProperties)

def modelType : TypeRecord :=
  textType "kubeflow.org/alpha/model" ("model_type" :: "version" :: entityProperties)

def executionType : TypeRecord :=
  textType "kubeflow.org/alpha/execution" ("executable_id" :: entityProperties)

/-- What the schemas define. An artifact and an executable have no namespace, a workspace is
of a category without types, and an entity has neither. -/
def shippedResults : List (Option (Resource × TypeRecord)) :=
  [none, some (.artifact, dataSetType), none, some (.artifact, metricsType),
    some (.artifact, modelType), none, none, some (.execution, executionType)]

/-- The types that are registered. -/
def shippedTypes : List (Resource × TypeRecord) := shippedResults.filterMap id

/-- What a schema defines, field by field. -/
def fields (p : Resource × TypeRecord) :
    Resource × Option Int × Option String × StringMap PropertyType :=
  (p.1, p.2.id, p.2.name, p.2.properties)

theorem fields_injective : Function.Injective fields := by
  rintro ⟨r, id, name, properties⟩ ⟨r', id', name', properties'⟩ hsame
  simpa [fields] using hsame

set_option synthInstance.maxSize 400 in
/-- Three levels of references resolve every schema. -/
theorem schemaType_shipped :
    (shippedSchemas.map fun schema => (schemaType shipped 3 schema.id).toOption) =
      shippedResults.map some := by
  apply List.map_injective_iff.mpr (Option.map_injective (Option.map_injective fields_injective))
  decide +kernel

/-! ## Registering them -/

/-- The schemas that define a type, with what they define. -/
theorem defines_shipped {r : Resource} {type : TypeRecord} (htype : (r, type) ∈ shippedTypes) :
    ∃ id ∈ shipped, schemaType shipped 3 id = .ok (some (r, type)) := by
  have hmem : some (some (r, type)) ∈ shippedResults.map some := by
    obtain ⟨result, hresult, rfl⟩ := List.mem_filterMap.mp htype
    exact List.mem_map_of_mem hresult
  rw [← schemaType_shipped] at hmem
  obtain ⟨schema, hschema, hresult⟩ := List.mem_map.mp hmem
  refine ⟨schema.id, mem_shipped.mpr ⟨schema, hschema, rfl⟩, ?_⟩
  cases hfound : schemaType shipped 3 schema.id with
  | error failure =>
      rw [hfound] at hresult
      cases hresult
  | ok found =>
      rw [hfound] at hresult
      exact congrArg Except.ok (Option.some.inj hresult)

/-- All shipped types are stored, possibly with further properties. -/
def Offers (s : Store) : Prop :=
  ∀ r type, (r, type) ∈ shippedTypes → ∃ u, s.findType r.kind type.getName = some u ∧
    Extends type.properties u.properties

theorem Offers.grows {s t : Store} (hs : Offers s) (hgrows : s.Grows t) : Offers t := by
  intro r type htype
  obtain ⟨u, hu, hextends⟩ := hs r type htype
  obtain ⟨v, hv, -, hvextends⟩ := hgrows.types.findType s.wellFormed t.wellFormed hu
  exact ⟨v, hv, hextends.trans hvextends⟩

/-- A registration that succeeds, in whatever order, has stored all shipped types. -/
theorem offers_of_registered {E : Effect api Store} (hE : Lawful E) {depth : Nat}
    {order types : List String} (hvisits : Visits shipped order) {s t : Store}
    (hrun : (registerSchemas (.ok shipped) depth order).run.Runs E s (.ok types) t) :
    Offers t := by
  obtain ⟨hstored, hdefined⟩ := registerIn_ok hE hrun
  intro r type htype
  obtain ⟨id, hid, hresult⟩ := defines_shipped htype
  have hvisited : id ∈ order := (hvisits.2 id).mpr hid
  obtain ⟨found, hfound⟩ := hdefined id hvisited
  -- What was found with this bound is found with any larger one, and so is the type.
  have hlarger : schemaType shipped (depth + 3) id = .ok found :=
    (schemaType_refines shipped (Nat.le_add_right depth 3) id).ok hfound
  have hlarger' : schemaType shipped (depth + 3) id = .ok (some (r, type)) :=
    (schemaType_refines shipped (Nat.le_add_left 3 depth) id).ok hresult
  obtain rfl : found = some (r, type) := Except.ok.inj (hlarger.symm.trans hlarger')
  obtain ⟨u, hu, hproperties⟩ := (hstored r type ⟨id, hvisited, hfound⟩).stored
  exact ⟨u, hu, by rw [hproperties]; exact Extends.refl _⟩

end KfMetadata.Schema
