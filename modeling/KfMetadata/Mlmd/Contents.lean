/-
# What the metadata store holds

The contents of the store are one table of types and one of items for each kind
of node, the events in the order they were put, and two relations. A store is
contents whose keys are distinct, so a `Store` never holds two types of one
name, or two records of one id. The updates below are the only ones the store's
methods make; each is followed by what it does to the lookups and by the order
`Grows`, which none of the insertions leaves.
-/

import KfMetadata.Library.Keyed
import KfMetadata.Mlmd.Records
import Mathlib.Data.Finset.Basic

namespace KfMetadata.Mlmd

/-- A type as it is stored. -/
structure StoredType where
  id : Int
  name : String
  properties : StringMap PropertyType
  deriving DecidableEq

/-- The message that reports a stored type. -/
def StoredType.toRecord (t : StoredType) : TypeRecord := ⟨some t.id, some t.name, t.properties⟩

/-- Everything in the store. -/
structure Contents where
  types : Kind → List StoredType
  items : (k : Kind) → List (Item k)
  events : List Event
  attributions : Finset Attribution
  associations : Finset Association

namespace Contents

variable (c : Contents) (k : Kind)

/-! ## Lookups -/

/-- The stored type of a given name. -/
def findType (name : String) : Option StoredType := Keyed.find StoredType.name (c.types k) name

/-- The stored record of a given id. -/
def findItem (id : Int) : Option (Item k) := Keyed.find Item.id (c.items k) (some id)

/-- The records of a given type. -/
def itemsOfType (name : String) : List (Item k) :=
  match c.findType k name with
  | none => []
  | some t => (c.items k).filter fun x => x.typeId = some t.id

/-! ## Updates -/

/-- A new type. -/
def addType (t : StoredType) : Contents :=
  { c with types := Function.update c.types k (c.types k ++ [t]) }

/-- The same types, with other properties for one of them. -/
def setProperties (name : String) (properties : StringMap PropertyType) : Contents :=
  { c with
    types := Function.update c.types k
      ((c.types k).map fun t => if t.name = name then { t with properties := properties } else t) }

/-- A new record. -/
def addItem (x : Item k) : Contents :=
  { c with items := Function.update c.items k (c.items k ++ [x]) }

/-- The same records, with another one under an id that is taken. -/
def setItem (x : Item k) : Contents :=
  { c with
    items := Function.update c.items k
      ((c.items k).map fun y => if y.id = x.id then x else y) }

/-- Further events. -/
def addEvents (events : List Event) : Contents := { c with events := c.events ++ events }

/-- Further members of contexts. -/
def addMembers (attributions : List Attribution) (associations : List Association) : Contents :=
  { c with
    attributions := c.attributions ∪ attributions.toFinset
    associations := c.associations ∪ associations.toFinset }

/-! ## Distinct keys -/

/-- No two types of a kind share a name or an id, and no two records of a kind
share an id. -/
structure WellFormed : Prop where
  typeNames : ∀ k, ((c.types k).map StoredType.name).Nodup
  typeIds : ∀ k, ((c.types k).map StoredType.id).Nodup
  itemIds : ∀ k, ((c.items k).map Item.id).Nodup

variable {c k}

theorem findType_eq_some_iff (hwf : c.WellFormed) {name : String} {t : StoredType} :
    c.findType k name = some t ↔ t ∈ c.types k ∧ t.name = name :=
  Keyed.find_eq_some_iff (hwf.typeNames k)

/-- Two stored types with one id are the same type. -/
theorem eq_of_type_id (hwf : c.WellFormed) {t u : StoredType} (ht : t ∈ c.types k)
    (hu : u ∈ c.types k) (hid : t.id = u.id) : t = u :=
  List.inj_on_of_nodup_map (hwf.typeIds k) ht hu hid

theorem types_addType_self (t : StoredType) : (c.addType k t).types k = c.types k ++ [t] :=
  Function.update_self k _ c.types

theorem types_addType_of_ne {j : Kind} (t : StoredType) (hne : j ≠ k) :
    (c.addType k t).types j = c.types j := Function.update_of_ne hne _ c.types

theorem items_addItem_self (x : Item k) : (c.addItem k x).items k = c.items k ++ [x] :=
  Function.update_self k _ c.items

theorem items_addItem_of_ne {j : Kind} (x : Item k) (hne : j ≠ k) :
    (c.addItem k x).items j = c.items j := Function.update_of_ne hne _ c.items

theorem items_setItem_self (x : Item k) :
    (c.setItem k x).items k = (c.items k).map fun y => if y.id = x.id then x else y :=
  Function.update_self k _ c.items

theorem items_setItem_of_ne {j : Kind} (x : Item k) (hne : j ≠ k) :
    (c.setItem k x).items j = c.items j := Function.update_of_ne hne _ c.items

@[simp]
theorem items_addType (t : StoredType) : (c.addType k t).items = c.items := rfl

@[simp]
theorem items_setProperties (name : String) (properties : StringMap PropertyType) :
    (c.setProperties k name properties).items = c.items := rfl

theorem types_setProperties (name : String) (properties : StringMap PropertyType) :
    (c.setProperties k name properties).types k =
      (c.types k).map fun t => if t.name = name then { t with properties := properties } else t :=
  Function.update_self k _ c.types

theorem types_setProperties_of_ne {j : Kind} (name : String)
    (properties : StringMap PropertyType) (hne : j ≠ k) :
    (c.setProperties k name properties).types j = c.types j :=
  Function.update_of_ne hne _ c.types

/-! ## The updates keep keys distinct -/

theorem WellFormed.addType (hwf : c.WellFormed) {t : StoredType}
    (hname : c.findType k t.name = none) (hid : ∀ u ∈ c.types k, u.id ≠ t.id) :
    (c.addType k t).WellFormed where
  typeNames j := by
    by_cases hj : j = k
    · subst hj
      rw [types_addType_self]
      exact Keyed.nodup_append_singleton (hwf.typeNames j) (Keyed.find_eq_none_iff.mp hname)
    · rw [types_addType_of_ne t hj]
      exact hwf.typeNames j
  typeIds j := by
    by_cases hj : j = k
    · subst hj
      rw [types_addType_self]
      exact Keyed.nodup_append_singleton (hwf.typeIds j) hid
    · rw [types_addType_of_ne t hj]
      exact hwf.typeIds j
  itemIds := hwf.itemIds

theorem WellFormed.setProperties (hwf : c.WellFormed) (name : String)
    (properties : StringMap PropertyType) : (c.setProperties k name properties).WellFormed where
  typeNames j := by
    by_cases hj : j = k
    · subst hj
      rw [types_setProperties]
      apply Keyed.nodup_map (hwf.typeNames j)
      intro t _
      split <;> rfl
    · rw [types_setProperties_of_ne name properties hj]
      exact hwf.typeNames j
  typeIds j := by
    by_cases hj : j = k
    · subst hj
      rw [types_setProperties]
      apply Keyed.nodup_map (hwf.typeIds j)
      intro t _
      split <;> rfl
    · rw [types_setProperties_of_ne name properties hj]
      exact hwf.typeIds j
  itemIds := hwf.itemIds

theorem WellFormed.addItem (hwf : c.WellFormed) {x : Item k}
    (hid : ∀ y ∈ c.items k, y.id ≠ x.id) : (c.addItem k x).WellFormed where
  typeNames := hwf.typeNames
  typeIds := hwf.typeIds
  itemIds j := by
    by_cases hj : j = k
    · subst hj
      rw [items_addItem_self]
      exact Keyed.nodup_append_singleton (hwf.itemIds j) hid
    · rw [items_addItem_of_ne x hj]
      exact hwf.itemIds j

theorem WellFormed.setItem (hwf : c.WellFormed) (x : Item k) : (c.setItem k x).WellFormed where
  typeNames := hwf.typeNames
  typeIds := hwf.typeIds
  itemIds j := by
    by_cases hj : j = k
    · subst hj
      rw [items_setItem_self]
      apply Keyed.nodup_map (hwf.itemIds j)
      intro y _
      by_cases hid : y.id = x.id
      · rw [if_pos hid, hid]
      · rw [if_neg hid]
    · rw [items_setItem_of_ne x hj]
      exact hwf.itemIds j

theorem WellFormed.addEvents (hwf : c.WellFormed) (events : List Event) :
    (c.addEvents events).WellFormed := ⟨hwf.typeNames, hwf.typeIds, hwf.itemIds⟩

theorem WellFormed.addMembers (hwf : c.WellFormed) (attributions : List Attribution)
    (associations : List Association) : (c.addMembers attributions associations).WellFormed :=
  ⟨hwf.typeNames, hwf.typeIds, hwf.itemIds⟩

/-! ## What is found after an update -/

theorem findType_addType (t : StoredType) (j : Kind) (name : String) :
    (c.addType k t).findType j name =
      if j = k ∧ c.findType j name = none ∧ t.name = name then some t else c.findType j name := by
  by_cases hj : j = k
  · subst hj
    rw [findType, types_addType_self, Keyed.find_append, Keyed.find_singleton]
    cases hfind : c.findType j name with
    | none =>
        rw [findType] at hfind
        simp [hfind]
    | some u =>
        rw [findType] at hfind
        simp [hfind]
  · rw [findType, types_addType_of_ne t hj]
    simp [hj, findType]

/-- A new type is found under its name. -/
theorem findType_addType_self {t : StoredType} (hname : c.findType k t.name = none) :
    (c.addType k t).findType k t.name = some t := by
  rw [findType_addType, if_pos ⟨rfl, hname, rfl⟩]

theorem findType_setProperties (name : String) (properties : StringMap PropertyType)
    (j : Kind) (other : String) :
    (c.setProperties k name properties).findType j other =
      if j = k ∧ other = name then
        (c.findType k name).map fun t => { t with properties := properties }
      else c.findType j other := by
  by_cases hj : j = k
  · subst hj
    rw [findType, types_setProperties, Keyed.find_map fun t _ => by split <;> rfl]
    by_cases hname : other = name
    · subst hname
      rw [if_pos ⟨rfl, rfl⟩]
      cases hfind : c.findType j other with
      | none =>
          rw [findType] at hfind
          rw [hfind]
          rfl
      | some t =>
          have ht : t.name = other := Keyed.key_of_find hfind
          rw [findType] at hfind
          rw [hfind]
          simp [ht]
    · rw [if_neg fun hboth => hname hboth.2]
      cases hfind : c.findType j other with
      | none =>
          rw [findType] at hfind
          rw [hfind]
          rfl
      | some t =>
          have ht : t.name = other := Keyed.key_of_find hfind
          rw [findType] at hfind
          rw [hfind]
          simp [ht, hname]
  · rw [findType, types_setProperties_of_ne name properties hj, if_neg fun hboth => hj hboth.1]
    rfl

/-- Setting the properties a type has already changes nothing. -/
theorem setProperties_of_same {name : String} {t : StoredType} (hwf : c.WellFormed)
    (hfind : c.findType k name = some t) : c.setProperties k name t.properties = c := by
  have hrows : (c.types k).map (fun u =>
      if u.name = name then { u with properties := t.properties } else u) = c.types k := by
    conv_rhs => rw [← List.map_id (c.types k)]
    apply List.map_congr_left
    intro u hu
    by_cases hname : u.name = name
    · have hsame : u = t :=
        Option.some.inj (((findType_eq_some_iff hwf).mpr ⟨hu, hname⟩).symm.trans hfind)
      subst hsame
      simp
    · simp [hname]
  simp only [setProperties, hrows, Function.update_eq_self]

/-- A new record is found under its id. -/
theorem findItem_addItem_self {x : Item k} {id : Int} (hid : x.id = some id)
    (hfresh : c.findItem k id = none) : (c.addItem k x).findItem k id = some x := by
  rw [findItem] at hfresh
  rw [findItem, items_addItem_self, Keyed.find_append, hfresh, Keyed.find_singleton, if_pos hid]
  rfl

theorem findItem_addItem_of_ne {x : Item k} {j : Kind} {id : Int}
    (hne : j = k → x.id ≠ some id) : (c.addItem k x).findItem j id = c.findItem j id := by
  by_cases hj : j = k
  · subst hj
    rw [findItem, items_addItem_self, Keyed.find_append, Keyed.find_singleton,
      if_neg (hne rfl), Option.or_none]
    rfl
  · rw [findItem, items_addItem_of_ne x hj]
    rfl

/-- A new record is one of its type. -/
theorem itemsOfType_addItem_of_type {name : String} {t : StoredType} {x : Item k}
    (hfind : c.findType k name = some t) (htype : x.typeId = some t.id) :
    (c.addItem k x).itemsOfType k name = c.itemsOfType k name ++ [x] := by
  have hsame : (c.addItem k x).findType k name = some t := hfind
  simp only [itemsOfType, hsame, hfind, items_addItem_self, List.filter_append,
    List.filter_cons, htype, decide_true, if_true, List.filter_nil]

/-- A new record is none of another type, or of a type that is not stored. -/
theorem itemsOfType_addItem_of_ne {name : String} {x : Item k}
    (htype : ∀ t, c.findType k name = some t → x.typeId ≠ some t.id) :
    (c.addItem k x).itemsOfType k name = c.itemsOfType k name := by
  have hsame : (c.addItem k x).findType k name = c.findType k name := rfl
  cases hfind : c.findType k name with
  | none => simp only [itemsOfType, hsame, hfind]
  | some t =>
      have hne : x.typeId ≠ some t.id := htype t hfind
      simp only [itemsOfType, hsame, hfind, items_addItem_self, List.filter_append,
        List.filter_cons, hne, decide_false, Bool.false_eq_true, if_false, List.filter_nil,
        List.append_nil]

/-! ## Growing -/

/-- Every type stays, with its name and id and at least its properties. -/
def TypesGrow (c d : Contents) : Prop :=
  ∀ k, ∀ t ∈ c.types k, ∃ u ∈ d.types k,
    u.id = t.id ∧ u.name = t.name ∧ Extends t.properties u.properties

theorem TypesGrow.trans {c d e : Contents} (hfirst : c.TypesGrow d) (hsecond : d.TypesGrow e) :
    c.TypesGrow e := by
  intro k t ht
  obtain ⟨u, hu, huid, huname, huprops⟩ := hfirst k t ht
  obtain ⟨v, hv, hvid, hvname, hvprops⟩ := hsecond k u hu
  exact ⟨v, hv, hvid.trans huid, hvname.trans huname, huprops.trans hvprops⟩

theorem TypesGrow.of_eq {c d : Contents} (hsame : d.types = c.types) : c.TypesGrow d := by
  intro k t ht
  exact ⟨t, by rw [hsame]; exact ht, rfl, rfl, Extends.refl _⟩

/-- A type that is found stays found, under the same id and with at least its
properties. -/
theorem TypesGrow.findType {d : Contents} (hgrow : c.TypesGrow d) (hc : c.WellFormed)
    (hd : d.WellFormed) {name : String} {t : StoredType} (hfind : c.findType k name = some t) :
    ∃ u, d.findType k name = some u ∧ u.id = t.id ∧ Extends t.properties u.properties := by
  obtain ⟨ht, hname⟩ := (findType_eq_some_iff hc).mp hfind
  obtain ⟨u, hu, hid, huname, hextends⟩ := hgrow k t ht
  exact ⟨u, (findType_eq_some_iff hd).mpr ⟨hu, huname.trans hname⟩, hid, hextends⟩

/-- The types grow, and every record, event and membership stays unchanged. -/
structure Grows (c d : Contents) : Prop where
  types : c.TypesGrow d
  items : ∀ k, c.items k <+: d.items k
  events : c.events <+: d.events
  attributions : c.attributions ⊆ d.attributions
  associations : c.associations ⊆ d.associations

theorem Grows.refl (c : Contents) : c.Grows c where
  types := TypesGrow.of_eq rfl
  items _ := List.prefix_refl _
  events := List.prefix_refl _
  attributions := Finset.Subset.refl _
  associations := Finset.Subset.refl _

theorem Grows.trans {c d e : Contents} (hfirst : c.Grows d) (hsecond : d.Grows e) : c.Grows e where
  types := hfirst.types.trans hsecond.types
  items k := (hfirst.items k).trans (hsecond.items k)
  events := hfirst.events.trans hsecond.events
  attributions := hfirst.attributions.trans hsecond.attributions
  associations := hfirst.associations.trans hsecond.associations

theorem grows_addType (t : StoredType) : c.Grows (c.addType k t) where
  types j u hu := by
    refine ⟨u, ?_, rfl, rfl, Extends.refl _⟩
    by_cases hj : j = k
    · subst hj
      rw [types_addType_self]
      exact List.mem_append_left _ hu
    · rwa [types_addType_of_ne t hj]
  items _ := List.prefix_refl _
  events := List.prefix_refl _
  attributions := Finset.Subset.refl _
  associations := Finset.Subset.refl _

/-- Properties may be set to any that extend the stored ones. -/
theorem grows_setProperties (hwf : c.WellFormed) {name : String}
    {properties : StringMap PropertyType} {t : StoredType} (hfind : c.findType k name = some t)
    (hextends : Extends t.properties properties) :
    c.Grows (c.setProperties k name properties) where
  types j u hu := by
    by_cases hj : j = k
    · subst hj
      rw [types_setProperties]
      refine ⟨_, List.mem_map.mpr ⟨u, hu, rfl⟩, ?_⟩
      by_cases hname : u.name = name
      · have hsame : u = t :=
          Option.some.inj (((findType_eq_some_iff hwf).mpr ⟨hu, hname⟩).symm.trans hfind)
        subst hsame
        simpa [hname] using hextends
      · simpa [hname] using Extends.refl u.properties
    · rw [types_setProperties_of_ne name properties hj]
      exact ⟨u, hu, rfl, rfl, Extends.refl _⟩
  items _ := List.prefix_refl _
  events := List.prefix_refl _
  attributions := Finset.Subset.refl _
  associations := Finset.Subset.refl _

theorem grows_addItem (x : Item k) : c.Grows (c.addItem k x) where
  types := TypesGrow.of_eq rfl
  items j := by
    by_cases hj : j = k
    · subst hj
      rw [items_addItem_self]
      exact List.prefix_append _ _
    · rw [items_addItem_of_ne x hj]
  events := List.prefix_refl _
  attributions := Finset.Subset.refl _
  associations := Finset.Subset.refl _

theorem grows_addEvents (events : List Event) : c.Grows (c.addEvents events) where
  types := TypesGrow.of_eq rfl
  items _ := List.prefix_refl _
  events := List.prefix_append _ _
  attributions := Finset.Subset.refl _
  associations := Finset.Subset.refl _

theorem grows_addMembers (attributions : List Attribution) (associations : List Association) :
    c.Grows (c.addMembers attributions associations) where
  types := TypesGrow.of_eq rfl
  items _ := List.prefix_refl _
  events := List.prefix_refl _
  attributions := Finset.subset_union_left
  associations := Finset.subset_union_left

end Contents

/-- The store: contents whose keys are distinct. -/
@[ext]
structure Store where
  contents : Contents
  wellFormed : contents.WellFormed

namespace Store

/-- Nothing is stored yet. -/
def empty : Store where
  contents := ⟨fun _ => [], fun _ => [], [], ∅, ∅⟩
  wellFormed := ⟨fun _ => List.nodup_nil, fun _ => List.nodup_nil, fun _ => List.nodup_nil⟩

variable (s : Store) (k : Kind)

/-- The stored type of a given name. -/
def findType (name : String) : Option StoredType := s.contents.findType k name

/-- The stored record of a given id. -/
def findItem (id : Int) : Option (Item k) := s.contents.findItem k id

variable {s k}

theorem findType_eq_some_iff {name : String} {t : StoredType} :
    s.findType k name = some t ↔ t ∈ s.contents.types k ∧ t.name = name :=
  Contents.findType_eq_some_iff s.wellFormed

/-- Everything stored in `s` is stored in `t`, types with at least the same
properties. -/
def Grows (s t : Store) : Prop := s.contents.Grows t.contents

/-- What is found stays found, unchanged. -/
theorem Grows.findItem {t : Store} {id : Int} {x : Item k} (hgrows : s.Grows t)
    (hfind : s.findItem k id = some x) : t.findItem k id = some x := by
  obtain ⟨more, hmore⟩ := Contents.Grows.items hgrows k
  rw [Store.findItem, Contents.findItem] at hfind ⊢
  rw [← hmore, Keyed.find_append, hfind]
  rfl

/-- The records of a type stay among those of the type. -/
theorem Grows.itemsOfType {t : Store} (hgrows : s.Grows t) (name : String) :
    (s.contents.itemsOfType k name).Sublist (t.contents.itemsOfType k name) := by
  rw [Contents.itemsOfType, Contents.itemsOfType]
  cases hfind : s.contents.findType k name with
  | none => exact List.nil_sublist _
  | some type =>
      obtain ⟨type', hfind', hid, -⟩ :=
        (Contents.Grows.types hgrows).findType s.wellFormed t.wellFormed hfind
      rw [hfind']
      simp only [hid]
      exact (Contents.Grows.items hgrows k).sublist.filter _

end Store

end KfMetadata.Mlmd
