/-
# Schema sets

A schema declares properties of its own and inherits those of the schemas that
its `allOf` list refers to. Resolving a reference recurses into the schema it
names, as deep as the chain of references goes, so the resolvers take a bound on
that depth and say when it was reached; a set whose references form a cycle
reaches every bound. Once a bound is large enough, larger ones do not change the
result.

Only the fields that the resolvers read are kept of a schema. The set itself is
what loading a directory of schema files yields.
-/

import KfMetadata.Mlmd.Records
import KfMetadata.Service.Names

namespace KfMetadata.Schema

open Mlmd Service

/-- The `type` of a schema: absent, a name, or something else. -/
inductive TypeField
  | absent
  | name (type : String)
  | other
  deriving DecidableEq, Repr

/-- A property as a schema declares it; an absent `constant` is the empty text. -/
structure Declaration where
  type : TypeField
  constant : String
  deriving DecidableEq, Repr

/-- An entry of an `allOf` list. -/
structure Parent where
  ref : Option String
  properties : StringMap Declaration

structure SchemaJSON where
  id : String
  properties : StringMap Declaration
  allOf : List Parent

/-- The schemas of a set by their `$id`. -/
abbrev SchemaSet : Type := StringMap SchemaJSON

def integerType : String := "integer"
def stringType : String := "string"
def numberType : String := "number"
def objectType : String := "object"

/-- The type a schema declares. -/
def Declaration.getType (d : Declaration) : String :=
  match d.type with
  | .name type => type
  | .absent | .other => objectType

def Declaration.isSimpleType (d : Declaration) : Bool :=
  d.getType = stringType ∨ d.getType = integerType ∨ d.getType = numberType

/-- Why a resolver has no result: the references go deeper than the bound, or an
error. -/
inductive Failure
  | tooDeep
  | error (error : GoError)

/-! ## One property -/

/-- Search the `allOf` entries, given in reverse order. An entry's own property
comes before those of the schema it refers to, and an error there is passed over. -/
def propertyTypeIn (resolve : String → Except Failure Declaration) (notFound : GoError)
    (name : String) : List Parent → Except Failure Declaration
  | [] => .error (.error notFound)
  | parent :: parents =>
      match parent.properties.lookup name with
      | some declaration => .ok declaration
      | none =>
          match parent.ref with
          | none => propertyTypeIn resolve notFound name parents
          | some ref =>
              match resolve ref with
              | .ok declaration => .ok declaration
              | .error .tooDeep => .error .tooDeep
              | .error (.error _) => propertyTypeIn resolve notFound name parents

/-- The declaration of a property in a schema: its own, or else the last inherited. -/
def propertyType (ss : SchemaSet) : Nat → String → String → Except Failure Declaration
  | 0, _, _ => .error .tooDeep
  | depth + 1, id, name =>
      match ss.lookup id with
      | none => .error (.error (.errorf "failed to find schema with $id %s" [.text id]))
      | some schema =>
          match schema.properties.lookup name with
          | some declaration => .ok declaration
          | none => propertyTypeIn (fun ref => propertyType ss depth ref name)
              (.errorf "failed to find property %q in %q" [.text name, .text id]) name
              schema.allOf.reverse

/-- The constant value of a string property. The error also prints the whole
declaration, of which only the read fields are kept. -/
def constantStringType (ss : SchemaSet) (depth : Nat) (id name : String) :
    Except Failure String := do
  let p ← propertyType ss depth id name
  if p.constant = "" then
    .error (.error (.errorf "property %q is not constant in %s, SchemaJSON %+v"
      [.text name, .text id]))
  else .ok p.constant

def namespacePropertyName : String := "namespace"
def kindPropertyName : String := "kind"
def versionPropertyName : String := "apiversion"
def idPropertyName : String := "id"
def uriPropertyName : String := "uri"

/-- The namespace and the name of the type that a schema defines. -/
def typeName (ss : SchemaSet) (depth : Nat) (id : String) : Except Failure (String × String) := do
  let space ← constantStringType ss depth id namespacePropertyName
  let kind ← constantStringType ss depth id kindPropertyName
  let version ← constantStringType ss depth id versionPropertyName
  return (space ++ "/" ++ version, kind)

/-! ## All simple properties -/

/-- Add the simple properties, over those of the same name. -/
def addSimpleProperties (properties : StringMap Declaration) (output : StringMap String) :
    StringMap String :=
  (properties.filterMap fun _ d => if d.isSimpleType then some d.getType else none) ∪ output

/-- Add the simple properties of the `allOf` entries in order, each entry's own
after those of the schema it refers to. -/
def simplePropertiesIn (resolve : String → Except Failure (StringMap String)) (id : String) :
    List Parent → StringMap String → Except Failure (StringMap String)
  | [], result => .ok result
  | parent :: parents, result =>
      match parent.ref with
      | none => simplePropertiesIn resolve id parents (addSimpleProperties parent.properties result)
      | some ref =>
          match resolve ref with
          | .ok props => simplePropertiesIn resolve id parents
              (addSimpleProperties parent.properties (props ∪ result))
          | .error .tooDeep => .error .tooDeep
          | .error (.error cause) => .error (.error
              (.wrapf "failed to resolve %s in AllOf fields in %s: %s" [.text ref, .text id] cause))

/-- The simple properties of a schema, inherited ones included. -/
def simpleProperties (ss : SchemaSet) : Nat → String → Except Failure (StringMap String)
  | 0, _ => .error .tooDeep
  | depth + 1, id =>
      match ss.lookup id with
      | none => .error (.error (.errorf "failed to find schema with $id %s" [.text id]))
      | some schema =>
          match simplePropertiesIn (simpleProperties ss depth) id schema.allOf ∅ with
          | .ok result => .ok (addSimpleProperties schema.properties result)
          | .error failure => .error failure

/-! ## Larger bounds -/

/-- `y` is `x`, unless `x` only says that its bound was too small. -/
def Refines {α : Type} (x y : Except Failure α) : Prop := x = .error .tooDeep ∨ y = x

theorem Refines.refl {α : Type} (x : Except Failure α) : Refines x x := Or.inr rfl

theorem Refines.tooDeep {α : Type} (y : Except Failure α) : Refines (.error .tooDeep) y :=
  Or.inl rfl

theorem Refines.ok {α : Type} {x y : Except Failure α} {a : α} (hrefines : Refines x y)
    (hx : x = .ok a) : y = .ok a := by
  rcases hrefines with hdeep | hsame
  · rw [hdeep] at hx
    cases hx
  · rw [hsame, hx]

theorem Refines.bind {α β : Type} {x y : Except Failure α} {f g : α → Except Failure β}
    (hfirst : Refines x y) (hrest : ∀ a, Refines (f a) (g a)) :
    Refines (x >>= f) (y >>= g) := by
  rcases hfirst with hdeep | hsame
  · rw [hdeep]
    exact Refines.tooDeep _
  · rw [hsame]
    cases x with
    | ok a => exact hrest a
    | error failure => exact Refines.refl _

theorem propertyTypeIn_refines {resolve resolve' : String → Except Failure Declaration}
    (hresolve : ∀ ref, Refines (resolve ref) (resolve' ref)) (notFound : GoError) (name : String)
    (parents : List Parent) :
    Refines (propertyTypeIn resolve notFound name parents)
      (propertyTypeIn resolve' notFound name parents) := by
  induction parents with
  | nil => exact Refines.refl _
  | cons parent parents ih =>
      simp only [propertyTypeIn]
      cases parent.properties.lookup name with
      | some declaration => exact Refines.refl _
      | none =>
          cases parent.ref with
          | none => exact ih
          | some ref =>
              rcases hresolve ref with hdeep | hsame
              · simp only [hdeep]
                exact Refines.tooDeep _
              · simp only [hsame]
                cases resolve ref with
                | ok declaration => exact Refines.refl _
                | error failure =>
                    cases failure with
                    | tooDeep => exact Refines.refl _
                    | error e => exact ih

/-- A larger bound finds the same declaration. -/
theorem propertyType_refines (ss : SchemaSet) {depth depth' : Nat} (hle : depth ≤ depth')
    (id name : String) :
    Refines (propertyType ss depth id name) (propertyType ss depth' id name) := by
  induction depth generalizing depth' id with
  | zero => exact Refines.tooDeep _
  | succ depth ih =>
      obtain ⟨larger, rfl⟩ := Nat.exists_eq_add_of_le' (Nat.lt_of_lt_of_le (Nat.succ_pos depth) hle)
      have hle' : depth ≤ larger := Nat.le_of_succ_le_succ hle
      simp only [propertyType]
      cases ss.lookup id with
      | none => exact Refines.refl _
      | some schema =>
          dsimp only
          cases schema.properties.lookup name with
          | some declaration => exact Refines.refl _
          | none => exact propertyTypeIn_refines (fun ref => ih hle' ref) _ _ _

theorem constantStringType_refines (ss : SchemaSet) {depth depth' : Nat} (hle : depth ≤ depth')
    (id name : String) :
    Refines (constantStringType ss depth id name) (constantStringType ss depth' id name) :=
  (propertyType_refines ss hle id name).bind fun _ => Refines.refl _

theorem typeName_refines (ss : SchemaSet) {depth depth' : Nat} (hle : depth ≤ depth')
    (id : String) : Refines (typeName ss depth id) (typeName ss depth' id) :=
  (constantStringType_refines ss hle id _).bind fun _ =>
    (constantStringType_refines ss hle id _).bind fun _ =>
      (constantStringType_refines ss hle id _).bind fun _ => Refines.refl _

theorem simplePropertiesIn_refines {resolve resolve' : String → Except Failure (StringMap String)}
    (hresolve : ∀ ref, Refines (resolve ref) (resolve' ref)) (id : String)
    (parents : List Parent) (result : StringMap String) :
    Refines (simplePropertiesIn resolve id parents result)
      (simplePropertiesIn resolve' id parents result) := by
  induction parents generalizing result with
  | nil => exact Refines.refl _
  | cons parent parents ih =>
      simp only [simplePropertiesIn]
      cases parent.ref with
      | none => exact ih _
      | some ref =>
          rcases hresolve ref with hdeep | hsame
          · simp only [hdeep]
            exact Refines.tooDeep _
          · simp only [hsame]
            cases resolve ref with
            | ok props => exact ih _
            | error failure =>
                cases failure with
                | tooDeep => exact Refines.refl _
                | error e => exact Refines.refl _

/-- A larger bound finds the same properties. -/
theorem simpleProperties_refines (ss : SchemaSet) {depth depth' : Nat} (hle : depth ≤ depth')
    (id : String) : Refines (simpleProperties ss depth id) (simpleProperties ss depth' id) := by
  induction depth generalizing depth' id with
  | zero => exact Refines.tooDeep _
  | succ depth ih =>
      obtain ⟨larger, rfl⟩ := Nat.exists_eq_add_of_le' (Nat.lt_of_lt_of_le (Nat.succ_pos depth) hle)
      have hle' : depth ≤ larger := Nat.le_of_succ_le_succ hle
      simp only [simpleProperties]
      cases ss.lookup id with
      | none => exact Refines.refl _
      | some schema =>
          dsimp only
          rcases simplePropertiesIn_refines (fun ref => ih hle' ref) id schema.allOf ∅ with
            hdeep | hsame
          · simp only [hdeep]
            exact Refines.tooDeep _
          · simp only [hsame]
            exact Refines.refl _

end KfMetadata.Schema
