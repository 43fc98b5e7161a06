/-
# Registering the schemas of a directory

At every start the server registers the types that the schemas of a directory
define, one after another in the unspecified order in which a map is visited.
Registration goes through the handler that creates types, so it succeeds on a
type that exists already only if nothing has been added to it since. The
development follows the registered types through any later requests: they stay
registered exactly as long as no update extends one of them.
-/

import KfMetadata.Mlmd.Consistent
import KfMetadata.Mlmd.InMemory
import KfMetadata.Schema.SchemaSet
import KfMetadata.Service.Atomicity
import Mathlib.Data.Finset.Max
import Mathlib.Data.String.Basic

namespace KfMetadata.Schema

open Mlmd Service Remote Remote.Program

def wholeMetaPropertyName : String := "__ALL_META__"
def categoryPropertyName : String := "category"
def artifactCategory : String := "artifact"
def executionCategory : String := "execution"

/-- The properties that every schema has and no type stores. -/
def isPropertyBuiltIn (pname : String) : Bool :=
  pname = categoryPropertyName ∨ pname = namespacePropertyName ∨ pname = kindPropertyName ∨
    pname = versionPropertyName ∨ pname = idPropertyName ∨ pname = uriPropertyName

/-- The property type of a simple schema type. -/
def simplePropertyType (ptype : String) : Option PropertyType :=
  if ptype = stringType then some .string
  else if ptype = integerType then some .int
  else if ptype = numberType then some .double
  else none

/-- The type that a schema with these simple properties defines. The error names
one of the properties that have no simple type; the map is visited in any order. -/
def newType (properties : StringMap String) (space typename : String) :
    Except GoError TypeRecord :=
  let unknown := properties.filterMap fun pname ptype =>
    if isPropertyBuiltIn pname ∨ (simplePropertyType ptype).isSome then none else some ptype
  if unknown.keys = ∅ then
    .ok
      { id := none
        name := some (space ++ "/" ++ typename)
        properties := (properties.filterMap fun pname ptype =>
          if isPropertyBuiltIn pname then none else simplePropertyType ptype).insert
            wholeMetaPropertyName .string }
  else
    let pname := unknown.keys.min.untopD ""
    .error (.errorf "internal error: unknown simple property type %q for property %q"
      [.text ((unknown.lookup pname).getD ""), .text pname])

/-- The type that the schema of a given `$id` defines, by the simple properties of
the schema. -/
def schemaProperties (ss : SchemaSet) (depth : Nat) (id space typename : String) :
    Except Failure TypeRecord :=
  match simpleProperties ss depth id with
  | .error .tooDeep => .error .tooDeep
  | .error (.error e) => .error (.error (.wrapf "failed to register schema: %v" [] e))
  | .ok properties =>
      match newType properties space typename with
      | .error e => .error (.error (.wrapf "failed to register schema: %v" [] e))
      | .ok type => .ok type

/-- What one round of the registration loop does before it calls the service: the
resource and the type to create, or nothing for a schema that is passed over. -/
def schemaType (ss : SchemaSet) (depth : Nat) (id : String) :
    Except Failure (Option (Resource × TypeRecord)) :=
  match typeName ss depth id with
  | .error .tooDeep => .error .tooDeep
  | .error (.error _) => .ok none
  | .ok (space, typename) =>
      match constantStringType ss depth id categoryPropertyName with
      | .error .tooDeep => .error .tooDeep
      | .error (.error _) => .error (.error (.errorf "schema %q property. schema $id = %s"
          [.text categoryPropertyName, .text id]))
      | .ok category =>
          if category = artifactCategory then
            (schemaProperties ss depth id space typename).map fun type => some (.artifact, type)
          else if category = executionCategory then
            (schemaProperties ss depth id space typename).map fun type => some (.execution, type)
          else .ok none

/-- The handler that creates a type of the resource. -/
def createType : Resource → TypeRecord → Handler TypeRecord
  | .artifact, type => createArtifactType (some type)
  | .execution, type => createExecutionType (some type)

theorem createType_eq (r : Resource) (type : TypeRecord) :
    createType r type = putType r createOptions (some type) := by
  cases r <;> rfl

/-- Create a type through the service. -/
def registerType (r : Resource) (type : TypeRecord) : ExceptT Failure (Program api) Unit :=
  ExceptT.mk ((createType r type).run >>= fun
    | .ok _ => pure (.ok ())
    | .error e => pure (.error (.error (.wrapf "failed to register schema: %v" []
        (.wrapf "error response from metadata server: %s" [] e)))))

/-- Register the schemas of a set in a given order, and return the names of the types. -/
def registerIn (ss : SchemaSet) (depth : Nat) :
    List String → ExceptT Failure (Program api) (List String)
  | [] => pure []
  | id :: ids =>
      match schemaType ss depth id with
      | .error failure => throw failure
      | .ok none => registerIn ss depth ids
      | .ok (some (r, type)) => do
          registerType r type
          let types ← registerIn ss depth ids
          return type.getName :: types

/-- Register what loading a directory has yielded. -/
def registerSchemas (loaded : Except GoError SchemaSet) (depth : Nat) (order : List String) :
    ExceptT Failure (Program api) (List String) :=
  match loaded with
  | .error e => throw (.error e)
  | .ok ss => registerIn ss depth order

/-- A visit of all schemas of a set. -/
def Visits (ss : SchemaSet) (order : List String) : Prop :=
  order.Nodup ∧ ∀ id, id ∈ order ↔ id ∈ ss

/-! ## What a schema defines does not depend on the bound -/

theorem schemaProperties_refines (ss : SchemaSet) {depth depth' : Nat} (hle : depth ≤ depth')
    (id space typename : String) :
    Refines (schemaProperties ss depth id space typename)
      (schemaProperties ss depth' id space typename) := by
  unfold schemaProperties
  rcases simpleProperties_refines ss hle id with hdeep | hsame
  · rw [hdeep]
    exact Refines.tooDeep _
  · rw [hsame]
    exact Refines.refl _

theorem schemaType_refines (ss : SchemaSet) {depth depth' : Nat} (hle : depth ≤ depth')
    (id : String) : Refines (schemaType ss depth id) (schemaType ss depth' id) := by
  unfold schemaType
  rcases typeName_refines ss hle id with hdeep | hsame
  · rw [hdeep]
    exact Refines.tooDeep _
  rw [hsame]
  rcases typeName ss depth id with (_ | _) | ⟨space, typename⟩
  · exact Refines.refl _
  · exact Refines.refl _
  rcases constantStringType_refines ss hle id categoryPropertyName with hdeep | hsame
  · simp only [hdeep]
    exact Refines.tooDeep _
  simp only [hsame]
  rcases constantStringType ss depth id categoryPropertyName with (_ | _) | category
  · exact Refines.refl _
  · exact Refines.refl _
  dsimp only
  rcases schemaProperties_refines ss hle id space typename with hdeep | hsame
  · rw [hdeep]
    split
    · exact Refines.tooDeep _
    · split
      · exact Refines.tooDeep _
      · exact Refines.refl _
  · rw [hsame]
    exact Refines.refl _

/-! ## What a schema defines -/

theorem newType_eq_ok {properties : StringMap String} {space typename : String}
    {type : TypeRecord} (hnew : newType properties space typename = .ok type) :
    type.id = none ∧ type.getName = space ++ "/" ++ typename := by
  unfold newType at hnew
  dsimp only at hnew
  split at hnew
  · cases hnew
    exact ⟨rfl, rfl⟩
  · cases hnew

theorem schemaProperties_eq_ok {ss : SchemaSet} {depth : Nat} {id space typename : String}
    {type : TypeRecord} (htype : schemaProperties ss depth id space typename = .ok type) :
    ∃ properties, newType properties space typename = .ok type := by
  unfold schemaProperties at htype
  split at htype
  · cases htype
  · cases htype
  · split at htype
    · cases htype
    · rename_i hnew
      cases htype
      exact ⟨_, hnew⟩

/-- What is registered for a schema is made of its type name and some properties. -/
theorem schemaType_eq_ok {ss : SchemaSet} {depth : Nat} {id : String} {r : Resource}
    {type : TypeRecord} (htype : schemaType ss depth id = .ok (some (r, type))) :
    ∃ space typename properties, typeName ss depth id = .ok (space, typename) ∧
      newType properties space typename = .ok type := by
  have hmapped : ∀ (r' : Resource) (result : Except Failure TypeRecord),
      result.map (fun type' => some (r', type')) = .ok (some (r, type)) → result = .ok type := by
    intro r' result hmap
    cases result with
    | error failure => cases hmap
    | ok type' =>
        cases hmap
        rfl
  unfold schemaType at htype
  split at htype
  · cases htype
  · cases htype
  · rename_i space typename hname
    split at htype
    · cases htype
    · cases htype
    · split at htype
      · obtain ⟨properties, hnew⟩ := schemaProperties_eq_ok (hmapped _ _ htype)
        exact ⟨space, typename, properties, hname, hnew⟩
      · split at htype
        · obtain ⟨properties, hnew⟩ := schemaProperties_eq_ok (hmapped _ _ htype)
          exact ⟨space, typename, properties, hname, hnew⟩
        · cases htype

/-- Types are registered without an id. -/
theorem id_of_schemaType {ss : SchemaSet} {depth : Nat} {id : String} {r : Resource}
    {type : TypeRecord} (htype : schemaType ss depth id = .ok (some (r, type))) :
    type.id = none := by
  obtain ⟨space, typename, properties, -, hnew⟩ := schemaType_eq_ok htype
  exact (newType_eq_ok hnew).1

/-! ## Registered types -/

/-- The type is stored with exactly its properties, and found by the handlers. -/
structure StoredAs (s : Store) (r : Resource) (type : TypeRecord) : Prop where
  stored : ∃ old, s.findType r.kind type.getName = some old ∧ old.properties = type.properties
  found : (s.findType r.kind (Text.trimPrefix type.getName r.typesCollection)).isSome

/-- The types that the visited schemas of a set define. -/
def Defines (ss : SchemaSet) (depth : Nat) (order : List String) (r : Resource)
    (type : TypeRecord) : Prop :=
  ∃ id ∈ order, schemaType ss depth id = .ok (some (r, type))

/-- Every type of a family is stored as it is. -/
def AllStored (D : Resource → TypeRecord → Prop) (s : Store) : Prop :=
  ∀ r type, D r type → StoredAs s r type

/-- A call that does not extend any type of the family. -/
def Keeps (D : Resource → TypeRecord → Prop) : Call → Prop
  | .putType k type opts => opts.canAddFields = true → ∀ r reg, D r reg → r.kind = k →
      reg.getName = type.getName → type.properties = reg.properties
  | _ => True

variable {E : Effect api Store} {D : Resource → TypeRecord → Prop} {s t : Store}

/-- Putting a type leaves the other types alone, and its own where it adds nothing. -/
theorem findType_of_documented_putType {k : Kind} {type : TypeRecord} {opts : PutTypeOptions}
    {id : Int} {c d : Contents} (hput : PutType k type opts c id d) {j : Kind}
    {name : String} {old : StoredType} (hfind : c.findType j name = some old)
    (hsame : opts.canAddFields = true → j = k → name = type.getName →
      type.properties = old.properties) : d.findType j name = some old := by
  unfold PutType at hput
  split at hput
  · rename_i hnone
    obtain ⟨-, -, rfl⟩ := hput
    rw [Contents.findType_addType, if_neg ?_]
    · exact hfind
    · rintro ⟨-, hmissing, -⟩
      rw [hfind] at hmissing
      cases hmissing
  · rename_i stored hstored
    obtain ⟨-, ⟨-, -, hfields⟩, rfl⟩ := hput
    rw [Contents.findType_setProperties]
    split
    · rename_i hboth
      obtain ⟨rfl, rfl⟩ := hboth
      rw [hfind] at hstored
      obtain rfl := Option.some.inj hstored
      have hproperties : type.properties = old.properties := by
        split at hfields
        · rename_i hadd
          exact hsame hadd rfl rfl
        · exact hfields
      rw [hfind, Option.map_some, hproperties]
    · exact hfind

/-- A documented call that extends no type of the family keeps the family stored. -/
theorem AllStored.documented (hall : AllStored D s) {op : Call} {result : op.Result}
    (hkeeps : Keeps D op) (hdoc : Documented op s.contents result t.contents) :
    AllStored D t := by
  have hunchanged : t.contents.types = s.contents.types → AllStored D t := by
    intro htypes r type hD
    have hfindType : ∀ k name, t.findType k name = s.findType k name := by
      intro k name
      simp only [Store.findType, Contents.findType, htypes]
    obtain ⟨hstored, hfound⟩ := hall r type hD
    exact ⟨by rw [hfindType]; exact hstored, by rw [hfindType]; exact hfound⟩
  cases op with
  | putType k type opts =>
      intro r reg hD
      obtain ⟨⟨old, hold, hproperties⟩, hfound⟩ := hall r reg hD
      refine ⟨⟨old, ?_, hproperties⟩, ?_⟩
      · apply findType_of_documented_putType hdoc hold
        intro hadd hk hname
        rw [hproperties]
        exact hkeeps hadd r reg hD hk hname
      · obtain ⟨u, hu⟩ := Option.isSome_iff_exists.mp hfound
        have hgrows : s.contents.Grows t.contents := PutType.grows s.wellFormed hdoc
        obtain ⟨v, hv, -⟩ := hgrows.types.findType s.wellFormed t.wellFormed hu
        rw [Store.findType, hv]
        rfl
  | putItems k items => exact hunchanged (PutItems.types hdoc)
  | putEvents events =>
      obtain ⟨now, stored, -, -, ht⟩ := hdoc
      exact hunchanged (by rw [ht]; rfl)
  | putAttributionsAndAssociations attributions associations =>
      obtain ⟨-, -, ht⟩ := hdoc
      exact hunchanged (by rw [ht]; rfl)
  | _ => exact hunchanged (by rw [hdoc.1])

theorem AllStored.call (hE : Sound E) (hall : AllStored D s) {op : Call} (hkeeps : Keeps D op)
    {reply : api.Reply op} (heffect : E op s reply t) : AllStored D t := by
  rcases hE.outcome heffect with rfl | ⟨result, hdoc⟩
  · exact hall
  · exact hall.documented hkeeps hdoc

end KfMetadata.Schema
