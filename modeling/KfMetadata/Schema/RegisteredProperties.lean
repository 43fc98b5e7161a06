/-
# The properties of a registered type

Registration reads the simple properties that a schema declares or inherits and
gives each of them a property type. Only simple types are ever collected, at
whatever depth, so the error for any other type is never reported. Properties
that every schema has are left out, and one more for the whole object is added
over whatever the schema says about its name.
-/

import KfMetadata.Schema.Restart

namespace KfMetadata.Schema

open Mlmd Service Remote Remote.Program

/-! ## Registering the type of one schema -/

/-- Register what the schema of an `$id` defines, under the given name. Errors are those
that the registration of the directory reports. -/
def registerSchemaType (r : Resource) (ss : SchemaSet) (depth : Nat)
    (id space typename : String) : ExceptT Failure (Program api) Unit :=
  match schemaProperties ss depth id space typename with
  | .error failure => throw failure
  | .ok type => registerType r type

def registerArtifactType (ss : SchemaSet) (depth : Nat) (id space typename : String) :
    ExceptT Failure (Program api) Unit :=
  registerSchemaType .artifact ss depth id space typename

def registerExecutionType (ss : SchemaSet) (depth : Nat) (id space typename : String) :
    ExceptT Failure (Program api) Unit :=
  registerSchemaType .execution ss depth id space typename

/-- The category of the schemas that define types of the resource. -/
def Resource.category : Resource → String
  | .artifact => artifactCategory
  | .execution => executionCategory

variable {ss : SchemaSet} {depth : Nat} {id space typename : String}

theorem schemaType_of_category (r : Resource)
    (hname : typeName ss depth id = .ok (space, typename))
    (hcategory : constantStringType ss depth id categoryPropertyName = .ok (Resource.category r)) :
    schemaType ss depth id =
      (schemaProperties ss depth id space typename).map fun type => some (r, type) := by
  rw [schemaType]
  simp only [hname, hcategory]
  cases r with
  | artifact => rfl
  | execution =>
      rw [if_neg (show Resource.category .execution ≠ artifactCategory by decide)]
      rfl

/-- The loop over the schemas does this for each schema of the category. -/
theorem registerIn_cons (r : Resource) (ids : List String)
    (hname : typeName ss depth id = .ok (space, typename))
    (hcategory : constantStringType ss depth id categoryPropertyName = .ok (Resource.category r)) :
    registerIn ss depth (id :: ids) = do
      registerSchemaType r ss depth id space typename
      let types ← registerIn ss depth ids
      return (space ++ "/" ++ typename) :: types := by
  rw [registerIn, schemaType_of_category r hname hcategory, registerSchemaType]
  cases hproperties : schemaProperties ss depth id space typename with
  | error failure => rfl
  | ok type =>
      obtain ⟨properties, hnew⟩ := schemaProperties_eq_ok hproperties
      simp only [Except.map, (newType_eq_ok hnew).2]

/-! ## Only simple types are collected -/

/-- The schema types that a property type stands for. -/
def IsSimple (type : String) : Prop := type = "string" ∨ type = "integer" ∨ type = "number"

/-- Every collected property is of a simple type. -/
def AllSimple (m : StringMap String) : Prop :=
  ∀ name type, m.lookup name = some type → IsSimple type

theorem allSimple_empty : AllSimple ∅ := by
  intro name type hlookup
  rw [Finmap.lookup_empty] at hlookup
  cases hlookup

theorem AllSimple.union {m m' : StringMap String} (hm : AllSimple m) (hm' : AllSimple m') :
    AllSimple (m ∪ m') := by
  intro name type hlookup
  cases (Finmap.mem_lookup_union).mp hlookup with
  | inl hleft => exact hm name type hleft
  | inr hright => exact hm' name type hright.2

theorem isSimple_getType {d : Declaration} (hsimple : d.isSimpleType = true) :
    IsSimple d.getType := by
  rw [Declaration.isSimpleType, decide_eq_true_iff] at hsimple
  exact hsimple

theorem AllSimple.addSimpleProperties {m : StringMap String} (hm : AllSimple m)
    (properties : StringMap Declaration) : AllSimple (addSimpleProperties properties m) := by
  apply AllSimple.union ?_ hm
  intro name type hlookup
  rw [StringMap.lookup_filterMap] at hlookup
  obtain ⟨d, -, hd⟩ := Option.bind_eq_some_iff.mp hlookup
  split at hd
  next hsimple =>
    rw [← Option.some.inj hd]
    exact isSimple_getType hsimple
  next => cases hd

theorem AllSimple.simplePropertiesIn {resolve : String → Except Failure (StringMap String)}
    (hresolve : ∀ ref props, resolve ref = .ok props → AllSimple props) {parents : List Parent}
    {m result : StringMap String} (hm : AllSimple m)
    (hin : simplePropertiesIn resolve id parents m = .ok result) : AllSimple result := by
  induction parents generalizing m with
  | nil =>
      cases hin
      exact hm
  | cons parent parents ih =>
      rw [Schema.simplePropertiesIn] at hin
      cases href : parent.ref with
      | none =>
          simp only [href] at hin
          exact ih (hm.addSimpleProperties parent.properties) hin
      | some ref =>
          simp only [href] at hin
          cases hprops : resolve ref with
          | error failure => cases failure <;> simp [hprops] at hin
          | ok props =>
              simp only [hprops] at hin
              have hunion := (hresolve ref props hprops).union hm
              exact ih (hunion.addSimpleProperties parent.properties) hin

/-- **Collected properties.** By induction on the bound, whatever the references. -/
theorem allSimple_simpleProperties {properties : StringMap String}
    (hsimple : simpleProperties ss depth id = .ok properties) : AllSimple properties := by
  induction depth generalizing id properties with
  | zero => cases hsimple
  | succ depth ih =>
      rw [simpleProperties] at hsimple
      cases hschema : ss.lookup id with
      | none => simp [hschema] at hsimple
      | some schema =>
          simp only [hschema] at hsimple
          cases hin : simplePropertiesIn (simpleProperties ss depth) id schema.allOf ∅ with
          | error failure => simp [hin] at hsimple
          | ok result =>
              simp only [hin] at hsimple
              cases hsimple
              have hresult := AllSimple.simplePropertiesIn (fun ref props => ih) allSimple_empty hin
              exact hresult.addSimpleProperties schema.properties

/-! ## The type that is registered -/

/-- The properties that every schema has. -/
def builtInProperties : List String :=
  ["category", "namespace", "kind", "apiversion", "id", "uri"]

/-- The property type that stands for a schema type. -/
def StandsFor (ptype : PropertyType) (type : String) : Prop :=
  type = "string" ∧ ptype = .string ∨ type = "integer" ∧ ptype = .int ∨
    type = "number" ∧ ptype = .double

/-- One property for each simple property that is not built in, one for the whole object,
and no other. -/
def ExactProperties (properties : StringMap String) (registered : StringMap PropertyType) : Prop :=
  ∀ pname ptype, registered.lookup pname = some ptype ↔
    pname = "__ALL_META__" ∧ ptype = .string ∨
    pname ≠ "__ALL_META__" ∧ pname ∉ builtInProperties ∧
      ∃ type, properties.lookup pname = some type ∧ StandsFor ptype type

theorem isPropertyBuiltIn_iff {pname : String} :
    isPropertyBuiltIn pname = true ↔ pname ∈ builtInProperties := by
  rw [isPropertyBuiltIn, decide_eq_true_iff]
  simp only [builtInProperties, List.mem_cons, List.not_mem_nil, or_false]
  rfl

theorem simplePropertyType_eq_some_iff {type : String} {ptype : PropertyType} :
    simplePropertyType type = some ptype ↔ StandsFor ptype type := by
  simp only [simplePropertyType, StandsFor, stringType, integerType, numberType]
  by_cases hstring : type = "string"
  · subst hstring
    simp [eq_comm]
  · by_cases hinteger : type = "integer"
    · subst hinteger
      simp [eq_comm]
    · by_cases hnumber : type = "number"
      · subst hnumber
        simp [eq_comm]
      · simp [hstring, hinteger, hnumber]

theorem IsSimple.isSome {type : String} (hsimple : IsSimple type) :
    (simplePropertyType type).isSome = true := by
  rcases hsimple with rfl | rfl | rfl
  · rfl
  · rfl
  · rfl

/-- Every simple property has a type. -/
theorem unknown_of_allSimple {properties : StringMap String} (hsimple : AllSimple properties) :
    (properties.filterMap fun pname ptype =>
      if isPropertyBuiltIn pname ∨ (simplePropertyType ptype).isSome then none
      else some ptype) = ∅ := by
  apply Finmap.ext_lookup
  intro pname
  rw [StringMap.lookup_filterMap, Finmap.lookup_empty]
  cases hlookup : properties.lookup pname with
  | none => rfl
  | some type => exact if_pos (Or.inr (hsimple pname type hlookup).isSome)

/-- The properties that a type is made with are exactly the ones it should have. -/
theorem exactProperties_insert (properties : StringMap String) :
    ExactProperties properties ((properties.filterMap fun pname ptype =>
      if isPropertyBuiltIn pname then none else simplePropertyType ptype).insert
        wholeMetaPropertyName .string) := by
  intro pname ptype
  by_cases hwhole : pname = wholeMetaPropertyName
  · subst hwhole
    rw [Finmap.lookup_insert]
    apply Iff.intro
    · intro hstring
      exact Or.inl ⟨rfl, (Option.some.inj hstring).symm⟩
    · intro hforms
      cases hforms with
      | inl hstring => rw [hstring.2]
      | inr hother => exact absurd rfl hother.1
  · have hnot : ¬ (pname = "__ALL_META__" ∧ ptype = .string) := fun hforms => hwhole hforms.1
    have hname : pname ≠ "__ALL_META__" := hwhole
    rw [Finmap.lookup_insert_of_ne _ hwhole, StringMap.lookup_filterMap, or_iff_right hnot,
      and_iff_right hname, Option.bind_eq_some_iff]
    apply Iff.intro
    · intro hentry
      obtain ⟨type, hlookup, htype⟩ := hentry
      split at htype
      next => cases htype
      next hbuiltIn =>
        exact ⟨fun hmem => hbuiltIn (isPropertyBuiltIn_iff.mpr hmem), type, hlookup,
          simplePropertyType_eq_some_iff.mp htype⟩
    · intro hentry
      obtain ⟨hbuiltIn, type, hlookup, hstands⟩ := hentry
      refine ⟨type, hlookup, ?_⟩
      rw [if_neg fun hmem => hbuiltIn (isPropertyBuiltIn_iff.mp hmem)]
      exact simplePropertyType_eq_some_iff.mpr hstands

/-- Simple properties define a type, with exactly these properties. -/
theorem newType_of_allSimple {properties : StringMap String} (hsimple : AllSimple properties)
    (space typename : String) :
    ∃ type, newType properties space typename = .ok type ∧
      type.name = some (space ++ "/" ++ typename) ∧ ExactProperties properties type.properties := by
  rw [newType]
  simp only [unknown_of_allSimple hsimple]
  rw [if_pos Finmap.keys_empty]
  exact ⟨_, rfl, rfl, exactProperties_insert properties⟩

/-- A registration that sends its type reports no errors but the service's. -/
theorem runs_registerType_error {E : Effect api Store} {s t : Store} {r : Resource}
    {type : TypeRecord} {failure : Failure}
    (hrun : (registerType r type).run.Runs E s (.error failure) t) :
    ∃ e, failure = .error (.wrapf "failed to register schema: %v" []
      (.wrapf "error response from metadata server: %s" [] e)) := by
  obtain ⟨reply, -, hreply⟩ := runs_registerType.mp hrun
  cases reply with
  | ok value => cases hreply
  | error e => exact ⟨e, Except.error.inj hreply⟩

/-- What a registration makes of the handler's answer. -/
def reported : Except GoError TypeRecord → Except Failure Unit
  | .ok _ => .ok ()
  | .error e => .error (.error (.wrapf "failed to register schema: %v" []
      (.wrapf "error response from metadata server: %s" [] e)))

/-- The registration asks for the type itself, by the request that creates types of the
resource: the request starts with a put of the type, and its answer is all that counts. -/
structure Sends (r : Resource) (type : TypeRecord)
    (register : ExceptT Failure (Program api) Unit) : Prop where
  creates : register.run = (createType r type).run >>= fun answer => pure (reported answer)
  puts : (createType r type).run.firstCall = some (.putType r.kind type createOptions)

theorem sends_registerType (r : Resource) (type : TypeRecord) :
    Sends r type (registerType r type) := by
  constructor
  · refine congrArg ((createType r type).run >>= ·) (funext fun answer => ?_)
    cases answer <;> rfl
  · rw [createType_eq]
    rfl

/-- The registration sends the type that the simple properties define. -/
theorem registerSchemaType_eq {properties : StringMap String} {type : TypeRecord} (r : Resource)
    (hproperties : simpleProperties ss depth id = .ok properties)
    (hnew : newType properties space typename = .ok type) :
    registerSchemaType r ss depth id space typename = registerType r type := by
  simp only [registerSchemaType, schemaProperties, hproperties, hnew]

/-- **Registered properties.** Both registrations of a schema send one and the same type, as
it is, in one request to create a type. It has exactly the simple properties of the schema,
and the service's errors are the only ones. -/
theorem registers_simpleProperties {properties : StringMap String}
    (hproperties : simpleProperties ss depth id = .ok properties) (space typename : String) :
    ∃ type : TypeRecord, type.name = some (space ++ "/" ++ typename) ∧
      ExactProperties properties type.properties ∧
      registerArtifactType ss depth id space typename = registerType .artifact type ∧
      registerExecutionType ss depth id space typename = registerType .execution type ∧
      Sends .artifact type (registerArtifactType ss depth id space typename) ∧
      Sends .execution type (registerExecutionType ss depth id space typename) ∧
      ∀ (r : Resource) (E : Effect api Store) (s t : Store) (failure : Failure),
        (registerSchemaType r ss depth id space typename).run.Runs E s (.error failure) t →
        ∃ e, failure = .error (.wrapf "failed to register schema: %v" []
          (.wrapf "error response from metadata server: %s" [] e)) := by
  obtain ⟨type, hnew, hname, hexact⟩ :=
    newType_of_allSimple (allSimple_simpleProperties hproperties) space typename
  have hregister : ∀ r,
      registerSchemaType r ss depth id space typename = registerType r type := by
    intro r
    exact registerSchemaType_eq r hproperties hnew
  refine ⟨type, hname, hexact, hregister .artifact, hregister .execution, ?_, ?_, ?_⟩
  · rw [registerArtifactType, hregister]
    exact sends_registerType .artifact type
  · rw [registerExecutionType, hregister]
    exact sends_registerType .execution type
  · intro r E s t failure hrun
    rw [hregister] at hrun
    exact runs_registerType_error hrun

/-- A schema whose name for the whole object is also that of a number. -/
def numberedSchema : SchemaSet :=
  Finmap.singleton "numbered"
    { id := "numbered"
      properties := (((Finmap.singleton "name" ⟨.name "string", ""⟩).insert
        "layers" ⟨.name "integer", ""⟩).insert
        "__ALL_META__" ⟨.name "number", ""⟩).insert
        "category" (constantText artifactCategory)
      allOf := [] }

/-- Its type is registered with a text, an integer and the whole object. -/
theorem registers_numberedSchema : ∃ (properties : StringMap String) (type : TypeRecord),
    simpleProperties numberedSchema 1 "numbered" = .ok properties ∧
    Sends .artifact type
      (registerArtifactType numberedSchema 1 "numbered" "kubeflow.org/v1" "numbered") ∧
    type.properties.lookup "__ALL_META__" = some .string ∧
    type.properties.lookup "layers" = some .int ∧ type.properties.lookup "category" = none := by
  have hproperties : ∃ properties, simpleProperties numberedSchema 1 "numbered" = .ok properties ∧
      properties.lookup "layers" = some "integer" := by
    simp only [simpleProperties, numberedSchema, Finmap.lookup_singleton_eq]
    exact ⟨_, rfl, by decide +kernel⟩
  obtain ⟨properties, hproperties, hlayers⟩ := hproperties
  obtain ⟨type, -, hexact, -, -, hsends, -⟩ :=
    registers_simpleProperties hproperties "kubeflow.org/v1" "numbered"
  refine ⟨properties, type, hproperties, hsends, ?_, ?_, ?_⟩
  · exact (hexact _ _).mpr (Or.inl ⟨rfl, rfl⟩)
  · exact (hexact _ _).mpr (Or.inr ⟨by decide, by decide, "integer", hlayers,
      Or.inr (Or.inl ⟨rfl, rfl⟩)⟩)
  · apply Option.eq_none_iff_forall_ne_some.mpr
    intro ptype hentry
    rcases (hexact _ _).mp hentry with ⟨hwhole, -⟩ | ⟨-, hbuiltIn, -⟩
    · exact absurd hwhole (by decide)
    · exact absurd hbuiltIn (by decide)

end KfMetadata.Schema
