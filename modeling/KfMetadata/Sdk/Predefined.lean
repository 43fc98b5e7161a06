/-
# Predefined artifacts and the shipped types

The client brings three classes of artifacts, and it stores executions. The types of all
these are not its own: the server has registered them from the shipped schemas. The two
sides agree by name and by property: whatever attributes an object has, its message has
texts only, under names that the shipped type of its class declares as texts. The store
checks a message against its type, so none is ever refused for its properties.
-/

import KfMetadata.Mlmd.Obliging
import KfMetadata.Schema.Shipped
import KfMetadata.Sdk.RoundTrip

namespace KfMetadata.Sdk

open Mlmd Schema Remote

/-! ## Objects and their types -/

namespace LoggedObject

/-- The shipped type of the object's class. -/
def type : LoggedObject → TypeRecord
  | .dataSet _ => dataSetType
  | .model _ => modelType
  | .metrics _ => metricsType

variable (dumps : Dumps) (x : LoggedObject)

/-- The class asks for the type under its name. -/
theorem getName_type : x.type.getName = (x.object dumps).typeName := by
  cases x <;> rfl

theorem type_mem : (Service.Resource.artifact, x.type) ∈ shippedTypes := by
  cases x <;> exact List.mem_of_elem_eq_true rfl

/-- No object has reserved properties or an id yet. -/
theorem serialization_blank : (x.object dumps).serialization.customProperties = ∅ ∧
    (x.object dumps).serialization.id = none := by
  cases x <;> exact ⟨rfl, rfl⟩

end LoggedObject

/-! ## Attributes that are stored by name -/

/-- The properties are the values of these attributes. -/
def Stores (attributes : List (String × Option String)) (properties : StringMap Value) : Prop :=
  ∀ name value, properties.lookup name = some value ↔
    ∃ text, (name, text) ∈ attributes ∧ value = stringValue text

theorem Stores.insert {attributes : List (String × Option String)} {properties : StringMap Value}
    (hstores : Stores attributes properties) (name : String) (text : Option String)
    (hnew : ∀ text, (name, text) ∉ attributes) :
    Stores (attributes ++ [(name, text)]) (properties.insert name (stringValue text)) := by
  intro other value
  by_cases hsame : other = name
  · subst hsame
    simp [Finmap.lookup_insert, hnew, eq_comm]
  · rw [Finmap.lookup_insert_of_ne _ hsame, hstores other value]
    simp [hsame]

namespace LoggedObject

variable (dumps : Dumps) (x : LoggedObject)

end LoggedObject

/-! ## Messages fit the shipped types -/

/-- The properties are texts or unset, under names that are declared as texts. -/
def Texts (type : TypeRecord) (properties : StringMap Value) : Prop :=
  ∀ name value, properties.lookup name = some value →
    (value = .unset ∨ ∃ text, value = .string text) ∧
      type.properties.lookup name = some .string

variable {type : TypeRecord} {properties : StringMap Value} {name : String}

theorem Texts.insert (hproperties : Texts type properties)
    (hname : type.properties.lookup name = some .string) {value : Value}
    (hvalue : value = .unset ∨ ∃ text, value = .string text) :
    Texts type (properties.insert name value) := by
  intro name' value' hlookup
  by_cases hsame : name' = name
  · subst hsame
    rw [Finmap.lookup_insert] at hlookup
    cases hlookup
    exact ⟨hvalue, hname⟩
  · rw [Finmap.lookup_insert_of_ne _ hsame] at hlookup
    exact hproperties name' value' hlookup

theorem Texts.string (hproperties : Texts type properties)
    (hname : type.properties.lookup name = some .string) (text : String) :
    Texts type (properties.insert name (.string text)) :=
  hproperties.insert hname (Or.inr ⟨text, rfl⟩)

theorem Texts.optional (hproperties : Texts type properties)
    (hname : type.properties.lookup name = some .string) (text : Option String) :
    Texts type (properties.insert name (stringValue text)) := by
  apply hproperties.insert hname
  cases text with
  | none => exact Or.inl rfl
  | some text => exact Or.inr ⟨text, rfl⟩

theorem Texts.singleton (hname : type.properties.lookup name = some .string) (text : String) :
    Texts type (Finmap.singleton name (.string text)) := by
  intro name' value hlookup
  have hmem := Finmap.mem_of_lookup_eq_some hlookup
  rw [Finmap.mem_singleton] at hmem
  subst hmem
  rw [Finmap.lookup_singleton_eq] at hlookup
  cases hlookup
  exact ⟨Or.inr ⟨text, rfl⟩, hname⟩

/-- What is left of them has the kinds that are declared. -/
theorem Texts.declared (hproperties : Texts type properties) {value : Value}
    (hlookup : (delNoneProperties properties).lookup name = some value) :
    value.type = some .string ∧ type.properties.lookup name = some .string := by
  rw [lookup_delNoneProperties, Option.filter_eq_some_iff] at hlookup
  obtain ⟨hlookup, htrue⟩ := hlookup
  obtain ⟨hvalue, hname⟩ := hproperties name value hlookup
  rcases hvalue with rfl | ⟨text, rfl⟩
  · cases htrue
  · exact ⟨rfl, hname⟩

/-- The properties that the two older classes have in common. -/
def commonProperties : List String :=
  ["name", "create_time", "description", "version", "owner", allMetaPropertyName]

theorem Attributes.serialization_declared (self : Attributes) (type : TypeRecord)
    {ownName : String} {own : Option String} (hcommon : ∀ name ∈ commonProperties,
      type.properties.lookup name = some .string)
    (hown : type.properties.lookup ownName = some .string) {value : Value}
    (hlookup : (self.serialization ownName own).properties.lookup name = some value) :
    value.type = some .string ∧ type.properties.lookup name = some .string := by
  have hname := Texts.singleton (hcommon "name" (by decide)) self.name
  have htime := hname.string (hcommon "create_time" (by decide)) self.createTime
  have hdescription := htime.optional (hcommon "description" (by decide)) self.description
  have hversion := (hdescription.optional hown own).optional (hcommon "version" (by decide))
    self.version
  have howner := hversion.optional (hcommon "owner" (by decide)) self.owner
  exact (howner.string (hcommon allMetaPropertyName (by decide)) self.allMeta).declared hlookup

theorem Metrics.serialization_declared (self : MetricsFields) (dumps : Dumps) {value : Value}
    (hlookup : (serialization self dumps).properties.lookup name = some value) :
    value.type = some .string ∧ metricsType.properties.lookup name = some .string := by
  have hdeclares : ∀ name ∈ ["name", "create_time", "description", "metrics_type", "data_set_id",
      "model_id", "owner", allMetaPropertyName],
        metricsType.properties.lookup name = some .string := by decide +kernel
  have hname := Texts.singleton (hdeclares "name" (by decide)) self.name
  have htime := hname.string (hdeclares "create_time" (by decide)) self.createTime
  have hdescription := htime.optional (hdeclares "description" (by decide)) self.description
  have hkind := hdescription.optional (hdeclares "metrics_type" (by decide)) self.metricsType
  have hdataSet := hkind.optional (hdeclares "data_set_id" (by decide)) self.dataSetId
  have hmodel := hdataSet.optional (hdeclares "model_id" (by decide)) self.modelId
  have howner := hmodel.optional (hdeclares "owner" (by decide)) self.owner
  exact (howner.string (hdeclares allMetaPropertyName (by decide)) _).declared hlookup

/-- The type of a class declares the properties of its objects. -/
theorem LoggedObject.serialization_declared (dumps : Dumps) (x : LoggedObject) {value : Value}
    (hlookup : (x.object dumps).serialization.properties.lookup name = some value) :
    value.type = some .string ∧ x.type.properties.lookup name = some .string := by
  cases x with
  | dataSet self =>
      exact (self.toDataSet dumps).toAttributes.serialization_declared dataSetType
        (by decide +kernel) (by decide +kernel) hlookup
  | model self =>
      exact (self.toModel dumps).toAttributes.serialization_declared modelType
        (by decide +kernel) (by decide +kernel) hlookup
  | metrics self => exact Metrics.serialization_declared self dumps hlookup

/-- So does the type of executions. -/
theorem Execution.serialized_declared (self : Execution) {value : Value}
    (hlookup : self.serialized.properties.lookup name = some value) :
    value.type = some .string ∧ executionType.properties.lookup name = some .string := by
  have hdeclares : ∀ name ∈ ["name", "create_time", "description"],
      executionType.properties.lookup name = some .string := by decide +kernel
  have hname := Texts.singleton (hdeclares "name" (by decide)) self.name
  have htime := hname.string (hdeclares "create_time" (by decide)) self.createTime
  exact (htime.optional (hdeclares "description" (by decide)) self.description).declared hlookup

/-- Where the shipped types are offered, a message fits the type of its class. -/
theorem typed_of_declared {s : Store} {k : Kind} {name : String} {id : Int} {x : Item k}
    (hnamed : TypeNamed s k name type.properties id) (htype : x.typeId = some id)
    (hdeclared : ∀ name value, x.properties.lookup name = some value →
      value.type = some .string ∧ type.properties.lookup name = some .string) :
    Typed s.contents x := by
  obtain ⟨u, hu, rfl, hextends⟩ := hnamed
  refine ⟨u, Keyed.mem_of_find hu, htype, fun property value hlookup => ?_⟩
  obtain ⟨hvalue, hproperty⟩ := hdeclared property value hlookup
  exact ⟨.string, hvalue, hextends property .string hproperty⟩

end KfMetadata.Sdk
