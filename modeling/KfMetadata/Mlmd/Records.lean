/-
# Records of the metadata store

The protocol buffer messages that the clients exchange with the metadata store:
types, artifacts, executions, contexts, events, attributions and associations.
An optional scalar field of a message is an `Option`; a map field is a finite
map. Artifacts, executions and contexts are the same message up to one field, so
they are one structure indexed by the kind of node.
-/

import Mathlib.Data.Finmap

namespace KfMetadata.Mlmd

/-- A map field with string keys. -/
abbrev StringMap (α : Type) : Type := Finmap fun _ : String => α

/-- The entries that `f` has a new value for. -/
def StringMap.filterMap {α β : Type} (f : String → α → Option β) (m : StringMap α) : StringMap β :=
  Finmap.keysLookupEquiv.symm
    ⟨(m.keys.filter fun name => ((m.lookup name).bind (f name)).isSome,
        fun name => (m.lookup name).bind (f name)), fun name => by
      simp only [Finset.mem_filter, Finmap.mem_keys, iff_and_self]
      intro hsome
      cases hlookup : m.lookup name with
      | none => simp [hlookup] at hsome
      | some value => exact Finmap.mem_of_lookup_eq_some hlookup⟩

@[simp] theorem StringMap.lookup_filterMap {α β : Type} (f : String → α → Option β)
    (m : StringMap α) (name : String) :
    (m.filterMap f).lookup name = (m.lookup name).bind (f name) :=
  Finmap.keysLookupEquiv_symm_apply_lookup _ name

/-- `new` has every entry of `old`. -/
def Extends {α : Type} (old new : StringMap α) : Prop :=
  ∀ name value, old.lookup name = some value → new.lookup name = some value

theorem Extends.refl {α : Type} (m : StringMap α) : Extends m m := fun _ _ hentry => hentry

theorem Extends.trans {α : Type} {m₁ m₂ m₃ : StringMap α} (hfirst : Extends m₁ m₂)
    (hsecond : Extends m₂ m₃) : Extends m₁ m₃ :=
  fun name value hentry => hsecond name value (hfirst name value hentry)

instance {α : Type} [DecidableEq α] (old new : StringMap α) : Decidable (Extends old new) :=
  decidable_of_iff (∀ name ∈ old.keys, old.lookup name = new.lookup name) <| by
    apply Iff.intro
    · intro hkeys name value hentry
      have hmem : name ∈ old.keys := Finmap.mem_keys.mpr (Finmap.mem_of_lookup_eq_some hentry)
      rw [← hkeys name hmem, hentry]
    · intro hextends name hmem
      obtain ⟨value, hentry⟩ := Finmap.mem_iff.mp (Finmap.mem_keys.mp hmem)
      rw [hentry, hextends name value hentry]

/-- The value kinds a property can be declared with. -/
inductive PropertyType
  | unknown
  | int
  | double
  | string
  deriving DecidableEq, Repr

/-- A property value: one of the kinds, or none of them. A double is its bits. -/
inductive Value
  | unset
  | int (value : Int)
  | double (bits : BitVec 64)
  | string (value : String)
  deriving DecidableEq, Repr

/-- The kind of a value that is set. -/
def Value.type : Value → Option PropertyType
  | .unset => none
  | .int _ => some .int
  | .double _ => some .double
  | .string _ => some .string

/-- The string of a value, empty when it is of another kind. -/
def Value.getString : Value → String
  | .string value => value
  | _ => ""

/-- The nodes of the store: things, steps that use and produce them, and groups. -/
inductive Kind
  | artifact
  | execution
  | context
  deriving DecidableEq, Repr

/-- The message of an artifact, execution or context type. -/
structure TypeRecord where
  id : Option Int
  name : Option String
  properties : StringMap PropertyType
  deriving DecidableEq

/-- The name of a type, empty when it is not set. -/
def TypeRecord.getName (t : TypeRecord) : String := t.name.getD ""

/-- The id of a type, zero when it is not set. -/
def TypeRecord.getId (t : TypeRecord) : Int := t.id.getD 0

/-- The field that only one kind of node has: an artifact's address, a context's
name. -/
abbrev Kind.Detail : Kind → Type
  | .artifact => Option String
  | .execution => Unit
  | .context => Option String

instance : (k : Kind) → DecidableEq k.Detail
  | .artifact => inferInstanceAs (DecidableEq (Option String))
  | .execution => inferInstanceAs (DecidableEq Unit)
  | .context => inferInstanceAs (DecidableEq (Option String))

/-- The message of an artifact, execution or context. -/
structure Item (k : Kind) where
  id : Option Int
  typeId : Option Int
  properties : StringMap Value
  customProperties : StringMap Value
  detail : k.Detail
  deriving DecidableEq

abbrev Artifact : Type := Item .artifact
abbrev Execution : Type := Item .execution
abbrev Context : Type := Item .context

/-- The address an artifact was stored with. -/
def Item.uri (a : Artifact) : Option String := a.detail

/-- The string of a property, empty when it is missing or not a string. -/
def getStringValue (properties : StringMap Value) (name : String) : String :=
  ((properties.lookup name).map Value.getString).getD ""

inductive EventType
  | unknown
  | declaredOutput
  | declaredInput
  | input
  | output
  deriving DecidableEq, Repr

/-- An execution used or produced an artifact. -/
structure Event where
  artifactId : Option Int
  executionId : Option Int
  type : EventType
  millisecondsSinceEpoch : Option Int
  deriving DecidableEq, Repr

/-- An artifact belongs to a context. -/
structure Attribution where
  contextId : Int
  artifactId : Int
  deriving DecidableEq, Repr

/-- An execution belongs to a context. -/
structure Association where
  contextId : Int
  executionId : Int
  deriving DecidableEq, Repr

/-- How a type that exists already may be put again. -/
structure PutTypeOptions where
  canAddFields : Bool
  canDeleteFields : Bool
  allFieldsMustMatch : Bool
  deriving DecidableEq, Repr

end KfMetadata.Mlmd
