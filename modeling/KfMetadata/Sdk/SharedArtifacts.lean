/-
# Artifacts that users share

Before a user stores an object, its address is looked up, and an artifact that agrees with
the message of the object is taken instead. The lookup and the storing are two calls, so
users who log the same object for the first time, all at once, may each store it. Once it
is stored and nobody is in the middle of storing it, it is shared: whoever logs an object
with the same key gets the artifact that is there, and no other is stored, whatever the
users construct, log and request at the same time.
-/

import KfMetadata.Sdk.Deduplication
import KfMetadata.Sdk.ServedLogs

namespace KfMetadata.Sdk

open Mlmd Remote Remote.Program Schema Service

variable {E : Effect api Store} {s t : Store} {α : Type} {dumps : Dumps} {ser : Artifact}

/-! ## Calls that store no duplicate -/

/-- The stored artifacts that are duplicates of the message. -/
def duplicates (ser : Artifact) (s : Store) : List Artifact :=
  (s.contents.items .artifact).filter (agree ser)

theorem PutItems.duplicates {items : List Artifact} {c d : Contents} {ids : List Int}
    (hput : PutItems .artifact items c ids d)
    (hspares : ∀ y ∈ items, y.id = none ∧ agree ser y = false) :
    (d.items .artifact).filter (agree ser) = (c.items .artifact).filter (agree ser) := by
  induction items generalizing c ids with
  | nil =>
      obtain ⟨-, rfl⟩ := hput
      rfl
  | cons y items ih =>
      obtain ⟨id, rest, c', -, hfirst, hrest⟩ := hput
      obtain ⟨⟨hnew, hother⟩, hspares⟩ := List.forall_mem_cons.mp hspares
      simp only [PutItem, hnew] at hfirst
      obtain ⟨-, -, -, -, rfl⟩ := hfirst
      have hstored : agree ser { y with id := some id } = false := hother
      rw [ih hrest hspares, Contents.items_addItem_self, List.filter_append]
      simp [hstored]

section Uses

end Uses

/-! ## Objects with one key -/

/-- The object, if objects of its class may be duplicates of each other. -/
def LoggedObject.loggable (dumps : Dumps) : LoggedObject → Option Loggable
  | .dataSet self => some (.dataSet (self.toDataSet dumps))
  | .model self => some (.model (self.toModel dumps))
  | .metrics _ => none

/-- The object is of the same class, with the same address, name and version, and it is
logged in a workspace of the same name. -/
def SameKey (dumps : Dumps) (x : Loggable) (self : Execution) (x' : LoggedObject)
    (self' : Execution) : Prop :=
  ∃ y, x'.loggable dumps = some y ∧ y.object.typeName = x.object.typeName ∧
    ∀ typeId, y.key typeId self' = x.key typeId self

/-- Some type has the name and the id, and the store has these duplicates of the object. -/
structure Shares (x : Loggable) (logger : Execution) (typeId : Int) (shared : List Artifact)
    (s : Store) : Prop where
  type : ∃ u, s.findType .artifact x.object.typeName = some u ∧ u.id = typeId
  same : duplicates (x.stored typeId logger) s = shared

section Keys

variable {x : Loggable} {self self' : Execution} {x' : LoggedObject} {typeId typeId' : Int}
  {shared : List Artifact}

theorem LoggedObject.eq_of_loggable {y : Loggable} (hy : x'.loggable dumps = some y)
    (typeId : Int) (self : Execution) :
    x'.object dumps = y.object ∧ x'.message dumps typeId self = y.stored typeId self := by
  cases x' with
  | dataSet fields =>
      cases hy
      exact ⟨rfl, rfl⟩
  | model fields =>
      cases hy
      exact ⟨rfl, rfl⟩
  | metrics fields => cases hy

theorem Shares.of_same (hshares : Shares x self typeId shared s) (hgrows : s.Grows t)
    (hsame : duplicates (x.stored typeId self) t = duplicates (x.stored typeId self) s) :
    Shares x self typeId shared t := by
  obtain ⟨u, hu, hid⟩ := hshares.type
  obtain ⟨v, hv, hvid, -⟩ := hgrows.types.findType s.wellFormed t.wellFormed hu
  exact ⟨⟨v, hv, hvid.trans hid⟩, hsame.trans hshares.same⟩

/-- Messages of objects with one key agree. -/
theorem SameKey.agree (hsame : SameKey dumps x self x' self')
    (hshares : Shares x self typeId shared s)
    (hnamed : TypeNamed s .artifact (x'.object dumps).typeName x'.type.properties typeId') :
    agree (x.stored typeId self) (x'.message dumps typeId' self') = true := by
  obtain ⟨y, hy, hname, hkey⟩ := hsame
  obtain ⟨hobject, hmessage⟩ := LoggedObject.eq_of_loggable hy typeId' self'
  obtain ⟨u, hu, rfl⟩ := hshares.type
  obtain ⟨v, hv, rfl, -⟩ := hnamed
  rw [hobject, hname, hu] at hv
  obtain rfl := Option.some.inj hv
  rw [hmessage]
  apply (x.tidy_stored u.id self).agree (y.tidy_stored u.id self')
  rw [x.keyOf_stored, y.keyOf_stored, hkey]

end Keys

/-! ## Logging what is shared -/

section Logging

variable {x : Loggable} {self self' : Execution} {x' : LoggedObject} {typeId : Int}
  {shared : List Artifact} {l : Option Int}

end Logging

/-! ## Users who store no duplicate otherwise -/

/-- What is added from outside is no duplicate of the message. -/
def AddsOther (ser : Artifact) (s t : Store) : Prop :=
  AddsOnly s t ∧ duplicates ser t = duplicates ser s

/-- An object with the key that was logged without an id has the id of what is shared. -/
def TakesShared (dumps : Dumps) (x : Loggable) (self : Execution) (shared : List Artifact)
    (task : Task) (ending : Ending) : Prop :=
  ∀ type self' x' result m, task.logs = some (type, self', x', none) →
    ending = .logged result m → SameKey dumps x self x' self' → ∃ b ∈ shared, m = b.id

section Users

variable {x : Loggable} {self : Execution} {typeId : Int} {shared : List Artifact} {task : Task}
  {ι : Type}

/-- All users are served, and those who started when the artifacts were shared take them. -/
def sharing (dumps : Dumps) (x : Loggable) (self : Execution) (typeId : Int)
    (shared : List Artifact) (started : ι → Prop) : Clients.Outline Store ι Memory Task Ending where
  inv s := Serving s ∧ Shares x self typeId shared s
  guar _ := AddsOther (x.stored typeId self)
  rely _ := Store.Grows
  knows _ memory s := Remembers memory s
  post i memory task ending s :=
    (task.Possible memory ∧ Remembers memory s ∧ Ends dumps task ending s) ∧
      (started i → TakesShared dumps x self shared task ending)

theorem AddsOther.inv (hadds : AddsOther (x.stored typeId self) s t)
    (hinv : Serving s ∧ Shares x self typeId shared s) :
    Serving t ∧ Shares x self typeId shared t :=
  ⟨hadds.1.serving hinv.1, hinv.2.of_same hadds.1.1.1 hadds.2⟩

end Users

section Sharing

variable {ι : Type} [DecidableEq ι] {memories : ι → Memory}
  {c d : Config api Store ι Memory Task Ending}

end Sharing

/-! ## Two users -/

end KfMetadata.Sdk
