/-
# A store that refuses only what it must

The contract of the store leaves open which calls are refused. A store is obliging when
it refuses a call only where the documentation allows no outcome at all. Lookups of what
is stored are then answered, links between stored records are put, and a new record that
fits its type is refused only when every id is taken.
-/

import KfMetadata.Mlmd.Additions
import KfMetadata.Mlmd.InMemory

namespace KfMetadata.Mlmd

open Remote

/-- A lawful service that refuses a call only if it has no documented outcome. -/
structure Obliging (E : Effect api Store) : Prop extends Lawful E where
  refuses : ∀ (op : Call) (s t : Store) (error : String), E op s (.error error) t →
    ∀ (result : op.Result) (u : Store), ¬ Documented op s.contents result u.contents

/-- Every id is that of a stored record. -/
def Full (k : Kind) (s : Store) : Prop := ∀ id, IsId id → ∃ x, s.findItem k id = some x

/-- The type of a name has this id, and at least these properties. -/
def TypeNamed (s : Store) (k : Kind) (name : String) (properties : StringMap PropertyType)
    (id : Int) : Prop :=
  ∃ u, s.findType k name = some u ∧ u.id = id ∧ Extends properties u.properties

variable {E : Effect api Store} {s t : Store} {k : Kind} {id : Int}

theorem Full.grows (hfull : Full k s) (hgrows : s.Grows t) : Full k t := by
  intro id hid
  obtain ⟨x, hx⟩ := hfull id hid
  exact ⟨x, hgrows.findItem hx⟩

theorem TypeNamed.grows {name : String} {properties : StringMap PropertyType}
    (hnamed : TypeNamed s k name properties id) (hgrows : s.Grows t) :
    TypeNamed t k name properties id := by
  obtain ⟨u, hu, huid, hextends⟩ := hnamed
  obtain ⟨v, hv, hvid, hvextends⟩ := hgrows.types.findType s.wellFormed t.wellFormed hu
  exact ⟨v, hv, hvid.trans huid, hextends.trans hvextends⟩

/-! ## Lookups -/

section Lookups

variable (hE : Obliging E)
include hE

/-- The type of a stored name is found. -/
theorem Obliging.getType {name : String} {u : StoredType} (hfind : s.findType k name = some u)
    {reply : Except String TypeRecord} (heffect : E (.getType k name) s reply t) :
    t = s ∧ reply = .ok u.toRecord := by
  have hread : (Call.getType k name).IsRead := trivial
  have hsame : t = s := hE.toLawful.sound.read hread heffect
  have hrecord : (s.contents.findType k name).map StoredType.toRecord = some u.toRecord := by
    rw [Store.findType] at hfind
    rw [hfind, Option.map_some]
  cases reply with
  | error error => exact (hE.refuses _ s t error heffect u.toRecord s ⟨rfl, hrecord⟩).elim
  | ok type =>
      obtain ⟨-, hfound⟩ := hE.accepted (.getType k name) s t type heffect
      exact ⟨hsame, congrArg Except.ok (Option.some.inj (hfound.symm.trans hrecord))⟩

/-- A stored record is found by its id, and alone. -/
theorem Obliging.getItemsByID {x : Item k} (hfind : s.findItem k id = some x)
    {reply : Except String (List (Item k))} (heffect : E (.getItemsByID k [id]) s reply t) :
    t = s ∧ reply = .ok [x] := by
  have hread : (Call.getItemsByID k [id]).IsRead := trivial
  have hsame : t = s := hE.toLawful.sound.read hread heffect
  cases reply with
  | error error => exact (hE.refuses _ s t error heffect _ s ⟨rfl, List.Perm.refl _⟩).elim
  | ok items =>
      have hdoc := hE.accepted (.getItemsByID k [id]) s t items heffect
      have hitems := documented_getItemsByID s.wellFormed hdoc
      rw [Store.findItem] at hfind
      rw [hfind] at hitems
      exact ⟨hsame, congrArg Except.ok hitems⟩

/-- A lookup by an id is refused for no reason that is in the store. -/
theorem Obliging.getItemsByID_stored (k : Kind) (id : Int) (s t : Store) (error : String)
    (heffect : E (.getItemsByID k [id]) s (.error error) t) : s.findItem k id = none :=
  (hE.refuses _ s t error heffect _ s ⟨rfl, List.Perm.refl _⟩).elim

/-- The artifacts of an address are found, in some order. -/
theorem Obliging.getArtifactsByURI {uri : String} {reply : Except String (List Artifact)}
    (heffect : E (.getArtifactsByURI uri) s reply t) :
    t = s ∧ ∃ items, reply = .ok items ∧
      items.Perm ((s.contents.items .artifact).filter fun a => a.uri = some uri) := by
  have hread : (Call.getArtifactsByURI uri).IsRead := trivial
  have hsame : t = s := hE.toLawful.sound.read hread heffect
  cases reply with
  | error error => exact (hE.refuses _ s t error heffect _ s ⟨rfl, List.Perm.refl _⟩).elim
  | ok items =>
      have hdoc := hE.accepted (.getArtifactsByURI uri) s t items heffect
      exact ⟨hsame, items, rfl, hdoc.2⟩

/-- The records of a type are found, in some order. -/
theorem Obliging.getItemsByType {name : String} {reply : Except String (List (Item k))}
    (heffect : E (.getItemsByType k name) s reply t) :
    t = s ∧ ∃ items, reply = .ok items ∧ items.Perm (s.contents.itemsOfType k name) := by
  have hread : (Call.getItemsByType k name).IsRead := trivial
  have hsame : t = s := hE.toLawful.sound.read hread heffect
  cases reply with
  | error error => exact (hE.refuses _ s t error heffect _ s ⟨rfl, List.Perm.refl _⟩).elim
  | ok items =>
      have hdoc := hE.accepted (.getItemsByType k name) s t items heffect
      exact ⟨hsame, items, rfl, hdoc.2⟩

end Lookups

/-! ## Writes -/

section Writes

variable (hE : Obliging E)
include hE

/-- A new artifact or execution that fits its type is stored, unless every id is taken. -/
theorem Obliging.putItem (hk : k ≠ .context) {x : Item k} (hnew : x.id = none)
    (htyped : Typed s.contents x) {reply : Except String (List Int)}
    (heffect : E (.putItems k [x]) s reply t) :
    (∃ id, reply = .ok [id] ∧ t.findItem k id = some { x with id := some id }) ∨
      (∃ error, reply = .error error) ∧ t = s ∧ Full k s := by
  have hclash : ∀ y ∈ s.contents.items k, ¬ Clash k x y := by
    intro y _ hclash
    cases k with
    | artifact => exact hclash
    | execution => exact hclash
    | context => exact hk rfl
  cases reply with
  | ok ids =>
      obtain ⟨id, rest, c, rfl, hput, rfl, hc⟩ := hE.accepted (.putItems k [x]) s t ids heffect
      simp only [PutItem, hnew] at hput
      obtain ⟨-, hfresh, -, -, rfl⟩ := hput
      refine Or.inl ⟨id, rfl, ?_⟩
      rw [Store.findItem, hc]
      exact Contents.findItem_addItem_self rfl hfresh
  | error error =>
      refine Or.inr ⟨⟨error, rfl⟩, hE.refused _ s t error heffect, fun id hid => ?_⟩
      cases hfind : s.findItem k id with
      | some y => exact ⟨y, rfl⟩
      | none =>
          have hput : PutItem k x s.contents id
              (s.contents.addItem k { x with id := some id }) := by
            simp only [PutItem, hnew]
            exact ⟨hid, hfind, htyped, hclash, trivial⟩
          exact (hE.refuses _ s t error heffect [id] ⟨_, hput.wellFormed s.wellFormed⟩
            ⟨id, [], _, rfl, hput, rfl, rfl⟩).elim

/-- Links between stored records are put. -/
theorem Obliging.putMembers {attributions : List Attribution} {associations : List Association}
    (hattributions : ∀ a ∈ attributions, (s.contents.findItem .artifact a.artifactId).isSome ∧
      (s.contents.findItem .context a.contextId).isSome)
    (hassociations : ∀ a ∈ associations, (s.contents.findItem .execution a.executionId).isSome ∧
      (s.contents.findItem .context a.contextId).isSome)
    {reply : Except String Unit}
    (heffect : E (.putAttributionsAndAssociations attributions associations) s reply t) :
    reply = .ok () := by
  cases reply with
  | ok result => rfl
  | error error =>
      exact (hE.refuses _ s t error heffect ()
        ⟨_, s.wellFormed.addMembers attributions associations⟩
        ⟨hattributions, hassociations, rfl⟩).elim

/-- An event with both its ends is put. -/
theorem Obliging.putEvent {e : Event} (hends : EndpointsStored s.contents e)
    {reply : Except String Unit} (heffect : E (.putEvents [some e]) s reply t) :
    reply = .ok () ∧ ∃ now, e.stamp now ∈ t.contents.events := by
  have hall : ∀ e' ∈ [e], EndpointsStored s.contents e' := by
    intro e' he'
    rw [List.mem_singleton.mp he']
    exact hends
  cases reply with
  | error error =>
      exact (hE.refuses _ s t error heffect ()
        ⟨_, s.wellFormed.addEvents ([e].map (Event.stamp 0))⟩ ⟨0, [e], rfl, hall, rfl⟩).elim
  | ok result =>
      obtain ⟨now, stored, hstored, -, ht⟩ := hE.accepted (.putEvents [some e]) s t result heffect
      have hmem : some e ∈ stored.map some := hstored ▸ List.mem_singleton_self _
      obtain ⟨e', he', hsame⟩ := List.mem_map.mp hmem
      obtain rfl := Option.some.inj hsame
      refine ⟨rfl, now, ?_⟩
      rw [ht]
      exact List.mem_append_right _ (List.mem_map_of_mem he')

end Writes

end KfMetadata.Mlmd
