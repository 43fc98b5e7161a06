/-
# The methods of the metadata store and their contract

The calls that the clients make, with what the documentation of the store says
of a call that succeeds. `Documented` is that documentation: it relates the
contents before a successful call, its reply, and the contents after. A service
is `Lawful` when its successful calls are documented and its refused calls
change nothing, and only `Sound` when a call may also fail after having had its
whole effect, as it may over a network. Neither promises that any call succeeds;
`Available` adds that of the few calls that have no reason to fail.
-/

import KfMetadata.Library.RemoteProgram
import KfMetadata.Mlmd.Contents

namespace KfMetadata.Mlmd

/-- A call of the store. -/
inductive Call
  | putType (k : Kind) (type : TypeRecord) (opts : PutTypeOptions)
  | getType (k : Kind) (typeName : String)
  | getTypes (k : Kind)
  | putItems (k : Kind) (items : List (Item k))
  | getItemsByID (k : Kind) (ids : List Int)
  | getItems (k : Kind)
  | getItemsByType (k : Kind) (typeName : String)
  | getArtifactsByURI (uri : String)
  | putEvents (events : List (Option Event))
  | getEventsByArtifactIDs (ids : List Int)
  | getEventsByExecutionIDs (ids : List Int)
  | putAttributionsAndAssociations (attributions : List Attribution)
      (associations : List Association)

/-- What a successful call returns. -/
abbrev Call.Result : Call → Type
  | .putType .. => Int
  | .getType .. => TypeRecord
  | .getTypes _ => List TypeRecord
  | .putItems .. => List Int
  | .getItemsByID k _ => List (Item k)
  | .getItems k => List (Item k)
  | .getItemsByType k _ => List (Item k)
  | .getArtifactsByURI _ => List Artifact
  | .putEvents _ => Unit
  | .getEventsByArtifactIDs _ => List Event
  | .getEventsByExecutionIDs _ => List Event
  | .putAttributionsAndAssociations .. => Unit

/-- The store as its clients see it: a call returns a result or an error text. -/
def api : Remote.Interface where
  Op := Call
  Reply := fun op => Except String op.Result

/-- Call the store once. -/
def call (op : Call) : Remote.Program api (Except String op.Result) :=
  Remote.Program.request (I := api) op

@[simp]
theorem runs_call {σ : Type} {E : Remote.Effect api σ} {op : Call} {s t : σ}
    {reply : Except String op.Result} : (call op).Runs E s reply t ↔ E op s reply t :=
  Remote.Program.runs_request

@[simp]
theorem uses_call {allowed : Call → Prop} {op : Call} :
    (call op).Uses (I := api) allowed ↔ allowed op := Remote.Program.uses_request

/-! ## What the documentation says of the writes -/

/-- Ids are positive 64-bit integers. -/
def IsId (id : Int) : Prop := 0 < id ∧ id < 2 ^ 63

instance (id : Int) : Decidable (IsId id) := inferInstanceAs (Decidable (_ ∧ _))

/-- When a type of a taken name may be put: all stored fields must match, and
further ones are allowed only by request. -/
def PutTypeOptions.Admits (opts : PutTypeOptions) (old new : StringMap PropertyType) : Prop :=
  opts.allFieldsMustMatch = true ∧ opts.canDeleteFields = false ∧
    if opts.canAddFields then Extends old new else new = old

instance (opts : PutTypeOptions) (old new : StringMap PropertyType) :
    Decidable (opts.Admits old new) := by
  unfold PutTypeOptions.Admits
  infer_instance

theorem PutTypeOptions.Admits.extends {opts : PutTypeOptions}
    {old new : StringMap PropertyType} (hadmits : opts.Admits old new) : Extends old new := by
  obtain ⟨-, -, hfields⟩ := hadmits
  split at hfields
  · exact hfields
  · rw [hfields]
    exact Extends.refl old

/-- Every property of an item is declared by its type with the kind it has. -/
def Conforms {k : Kind} (t : StoredType) (x : Item k) : Prop :=
  ∀ name value, x.properties.lookup name = some value →
    ∃ p, value.type = some p ∧ t.properties.lookup name = some p

instance {k : Kind} (t : StoredType) (x : Item k) : Decidable (Conforms t x) :=
  decidable_of_iff (∀ name ∈ x.properties.keys,
      ∃ p ∈ (x.properties.lookup name).bind Value.type, t.properties.lookup name = some p) <| by
    apply Iff.intro
    · intro hkeys name value hentry
      have hmem : name ∈ x.properties.keys :=
        Finmap.mem_keys.mpr (Finmap.mem_of_lookup_eq_some hentry)
      obtain ⟨p, hp, hdeclared⟩ := hkeys name hmem
      rw [hentry] at hp
      exact ⟨p, hp, hdeclared⟩
    · intro hconforms name hmem
      obtain ⟨value, hentry⟩ := Finmap.mem_iff.mp (Finmap.mem_keys.mp hmem)
      obtain ⟨p, hp, hdeclared⟩ := hconforms name value hentry
      exact ⟨p, by rw [hentry]; exact hp, hdeclared⟩

/-- A type with more properties still fits. -/
theorem Conforms.extends {k : Kind} {t u : StoredType} {x : Item k} (hconforms : Conforms t x)
    (hextends : Extends t.properties u.properties) : Conforms u x := by
  intro name value hentry
  obtain ⟨p, hp, hdeclared⟩ := hconforms name value hentry
  exact ⟨p, hp, hextends name p hdeclared⟩

/-- Two contexts of one type and name may not both be stored. -/
def Clash : (k : Kind) → Item k → Item k → Prop
  | .context, x, y => x.typeId = y.typeId ∧ x.detail = y.detail
  | _, _, _ => False

/-- A type is inserted under its name, or updated where its name is taken. -/
def PutType (k : Kind) (type : TypeRecord) (opts : PutTypeOptions) (c : Contents) (id : Int)
    (d : Contents) : Prop :=
  match c.findType k type.getName with
  | none => IsId id ∧ (∀ t ∈ c.types k, t.id ≠ id) ∧
      d = c.addType k ⟨id, type.getName, type.properties⟩
  | some old => id = old.id ∧ opts.Admits old.properties type.properties ∧
      d = c.setProperties k type.getName type.properties

/-- An item without an id is inserted, one with an id replaces the stored one. -/
def PutItem (k : Kind) (x : Item k) (c : Contents) (id : Int) (d : Contents) : Prop :=
  match x.id with
  | none => IsId id ∧ c.findItem k id = none ∧
      (∃ t ∈ c.types k, x.typeId = some t.id ∧ Conforms t x) ∧
      (∀ y ∈ c.items k, ¬ Clash k x y) ∧ d = c.addItem k { x with id := some id }
  | some i => id = i ∧ ∃ old, c.findItem k i = some old ∧
      (x.typeId = none ∨ x.typeId = old.typeId) ∧
      (∃ t ∈ c.types k, old.typeId = some t.id ∧ Conforms t x) ∧
      d = c.setItem k { x with typeId := old.typeId }

/-- Items are put one after another. -/
def PutItems (k : Kind) : List (Item k) → Contents → List Int → Contents → Prop
  | [], c, ids, d => ids = [] ∧ d = c
  | x :: xs, c, ids, d => ∃ id rest c',
      ids = id :: rest ∧ PutItem k x c id c' ∧ PutItems k xs c' rest d

/-- The event has a type, and both of its ends are stored. -/
def EndpointsStored (c : Contents) (e : Event) : Prop :=
  e.type ≠ .unknown ∧
    (∃ id, e.artifactId = some id ∧ (c.findItem .artifact id).isSome) ∧
    (∃ id, e.executionId = some id ∧ (c.findItem .execution id).isSome)

/-- The event as it is stored at a given time. -/
def Event.stamp (now : Int) (e : Event) : Event :=
  { e with millisecondsSinceEpoch := some (e.millisecondsSinceEpoch.getD now) }

/-- Events are appended, and get the current time where they have none. -/
def PutEvents (events : List (Option Event)) (c d : Contents) : Prop :=
  ∃ (now : Int) (stored : List Event), events = stored.map some ∧
    (∀ e ∈ stored, EndpointsStored c e) ∧
    d = c.addEvents (stored.map (Event.stamp now))

/-- Memberships are added between what is stored. -/
def PutMembers (attributions : List Attribution) (associations : List Association)
    (c d : Contents) : Prop :=
  (∀ a ∈ attributions, (c.findItem .artifact a.artifactId).isSome ∧
      (c.findItem .context a.contextId).isSome) ∧
    (∀ a ∈ associations, (c.findItem .execution a.executionId).isSome ∧
      (c.findItem .context a.contextId).isSome) ∧
    d = c.addMembers attributions associations

/-! ## The contract -/

/-- Whether an id that may be missing is among those asked for. -/
def isAmong (ids : List Int) (id : Option Int) : Bool := id ∈ ids.map some

/-- What the documentation says of a successful call. The lookups return what is
stored, in no particular order, and change nothing. -/
def Documented : (op : Call) → Contents → op.Result → Contents → Prop
  | .putType k type opts, c, id, d => PutType k type opts c id d
  | .getType k typeName, c, type, d =>
      d = c ∧ (c.findType k typeName).map StoredType.toRecord = some type
  | .getTypes k, c, types, d => d = c ∧ types.Perm ((c.types k).map StoredType.toRecord)
  | .putItems k items, c, ids, d => PutItems k items c ids d
  | .getItemsByID k ids, c, items, d =>
      d = c ∧ items.Perm ((c.items k).filter fun x => isAmong ids x.id)
  | .getItems k, c, items, d => d = c ∧ items.Perm (c.items k)
  | .getItemsByType k typeName, c, items, d => d = c ∧ items.Perm (c.itemsOfType k typeName)
  | .getArtifactsByURI uri, c, items, d =>
      d = c ∧ items.Perm ((c.items .artifact).filter fun x => x.uri = some uri)
  | .putEvents events, c, _, d => PutEvents events c d
  | .getEventsByArtifactIDs ids, c, events, d =>
      d = c ∧ events.Perm (c.events.filter fun e => isAmong ids e.artifactId)
  | .getEventsByExecutionIDs ids, c, events, d =>
      d = c ∧ events.Perm (c.events.filter fun e => isAmong ids e.executionId)
  | .putAttributionsAndAssociations attributions associations, c, _, d =>
      PutMembers attributions associations c d

variable (E : Remote.Effect api Store)

/-- Successful calls are documented, and refused calls change nothing. -/
structure Lawful : Prop where
  accepted : ∀ (op : Call) (s t : Store) (result : op.Result),
    E op s (.ok result) t → Documented op s.contents result t.contents
  refused : ∀ (op : Call) (s t : Store) (error : String), E op s (.error error) t → t = s

/-- Successful calls are documented, and a failed call had its whole effect or
none. -/
structure Sound : Prop where
  accepted : ∀ (op : Call) (s t : Store) (result : op.Result),
    E op s (.ok result) t → Documented op s.contents result t.contents
  failed : ∀ (op : Call) (s t : Store) (error : String), E op s (.error error) t →
    t = s ∨ ∃ result, Documented op s.contents result t.contents

/-- A lawful service that answers every call, refuses no lookup of a stored type
or record, and refuses no type that is stored already. -/
structure Available : Prop extends Lawful E where
  responds : E.Responds
  getType_stored : ∀ (k : Kind) (typeName : String) (s t : Store) (error : String),
    E (.getType k typeName) s (.error error) t → s.findType k typeName = none
  getItemsByID_stored : ∀ (k : Kind) (id : Int) (s t : Store) (error : String),
    E (.getItemsByID k [id]) s (.error error) t → s.findItem k id = none
  putType_stored : ∀ (k : Kind) (type : TypeRecord) (opts : PutTypeOptions) (s t : Store)
    (error : String) (old : StoredType), E (.putType k type opts) s (.error error) t →
    s.findType k type.getName = some old → type.id = none →
    ¬ opts.Admits old.properties type.properties

variable {E}

theorem Lawful.sound (hlawful : Lawful E) : Sound E where
  accepted := hlawful.accepted
  failed op s t error heffect := Or.inl (hlawful.refused op s t error heffect)

/-- Whatever it answers, a call of a sound service has no effect or a documented one. -/
theorem Sound.outcome (hsound : Sound E) {op : Call} {s t : Store} {reply : api.Reply op}
    (heffect : E op s reply t) : t = s ∨ ∃ result, Documented op s.contents result t.contents := by
  cases reply with
  | ok result => exact Or.inr ⟨result, hsound.accepted op s t result heffect⟩
  | error e => exact hsound.failed op s t e heffect

/-! ## Reads -/

/-- The calls that only look things up. -/
def Call.IsRead : Call → Prop
  | .putType .. | .putItems .. | .putEvents _ | .putAttributionsAndAssociations .. => False
  | _ => True

theorem Documented.eq_of_isRead {op : Call} {c d : Contents} {result : op.Result}
    (hdoc : Documented op c result d) (hread : op.IsRead) : d = c := by
  cases op with
  | putType k type opts => exact hread.elim
  | putItems k items => exact hread.elim
  | putEvents events => exact hread.elim
  | putAttributionsAndAssociations attributions associations => exact hread.elim
  | _ => exact hdoc.1

theorem Sound.read (hsound : Sound E) {op : Call} (hread : op.IsRead) {s t : Store}
    {reply : api.Reply op} (heffect : E op s reply t) : t = s := by
  rcases hsound.outcome heffect with hsame | ⟨result, hdoc⟩
  · exact hsame
  · exact Store.ext (hdoc.eq_of_isRead hread)

/-! ## Insertions -/

/-- The calls that never touch what is stored, apart from adding to it. -/
def Call.Inserts : Call → Prop
  | .putItems _ items => ∀ x ∈ items, x.id = none
  | _ => True

theorem PutType.grows {k : Kind} {type : TypeRecord} {opts : PutTypeOptions} {c d : Contents}
    {id : Int} (hc : c.WellFormed) (hput : PutType k type opts c id d) : c.Grows d := by
  unfold PutType at hput
  split at hput
  · obtain ⟨-, -, rfl⟩ := hput
    exact Contents.grows_addType _
  · rename_i old hfind
    obtain ⟨-, hadmits, rfl⟩ := hput
    exact Contents.grows_setProperties hc hfind hadmits.extends

theorem PutItems.grows {k : Kind} {items : List (Item k)} {c d : Contents} {ids : List Int}
    (hnew : ∀ x ∈ items, x.id = none) (hput : PutItems k items c ids d) : c.Grows d := by
  induction items generalizing c ids with
  | nil =>
      obtain ⟨-, rfl⟩ := hput
      exact Contents.Grows.refl d
  | cons x xs ih =>
      obtain ⟨id, rest, c', rfl, hfirst, hrest⟩ := hput
      have hx : x.id = none := hnew x List.mem_cons_self
      simp only [PutItem, hx] at hfirst
      obtain ⟨-, -, -, -, rfl⟩ := hfirst
      exact (Contents.grows_addItem _).trans
        (ih (fun y hy => hnew y (List.mem_cons_of_mem x hy)) hrest)

theorem Documented.grows {op : Call} {c d : Contents} {result : op.Result}
    (hc : c.WellFormed) (hdoc : Documented op c result d) (hinserts : op.Inserts) :
    c.Grows d := by
  cases op with
  | putType k type opts => exact PutType.grows hc hdoc
  | putItems k items => exact PutItems.grows hinserts hdoc
  | putEvents events =>
      obtain ⟨now, stored, -, -, rfl⟩ := hdoc
      exact Contents.grows_addEvents _
  | putAttributionsAndAssociations attributions associations =>
      obtain ⟨-, -, rfl⟩ := hdoc
      exact Contents.grows_addMembers _ _
  | _ =>
      obtain ⟨rfl, -⟩ := hdoc
      exact Contents.Grows.refl _

theorem Sound.grows (hsound : Sound E) {op : Call} (hinserts : op.Inserts) {s t : Store}
    {reply : api.Reply op} (heffect : E op s reply t) : s.Grows t := by
  rcases hsound.outcome heffect with rfl | ⟨result, hdoc⟩
  · exact Contents.Grows.refl _
  · exact hdoc.grows s.wellFormed hinserts

/-! ## Single types and records -/

/-- A type that is put is found under its name. -/
theorem PutType.findType {k : Kind} {type : TypeRecord} {opts : PutTypeOptions} {c d : Contents}
    {id : Int} (hput : PutType k type opts c id d) :
    d.findType k type.getName = some ⟨id, type.getName, type.properties⟩ := by
  unfold PutType at hput
  split at hput
  · rename_i hfind
    obtain ⟨-, -, rfl⟩ := hput
    exact Contents.findType_addType_self hfind
  · rename_i old hfind
    obtain ⟨rfl, -, rfl⟩ := hput
    have hname : old.name = type.getName := Keyed.key_of_find hfind
    rw [Contents.findType_setProperties, if_pos ⟨rfl, rfl⟩, hfind, Option.map_some, hname]

/-- Types of other names are found as before. -/
theorem PutType.findType_of_ne {k : Kind} {type : TypeRecord} {opts : PutTypeOptions}
    {c d : Contents} {id : Int} (hput : PutType k type opts c id d) {name : String}
    (hname : name ≠ type.getName) : d.findType k name = c.findType k name := by
  unfold PutType at hput
  split at hput
  · obtain ⟨-, -, rfl⟩ := hput
    rw [Contents.findType_addType, if_neg fun hall => hname hall.2.2.symm]
  · obtain ⟨-, -, rfl⟩ := hput
    rw [Contents.findType_setProperties, if_neg fun hboth => hname hboth.2]

/-- Putting one new record inserts it under a fresh id. -/
theorem putItems_singleton {k : Kind} {x : Item k} {c d : Contents} {ids : List Int}
    (hnew : x.id = none) :
    PutItems k [x] c ids d ↔ ∃ id, ids = [id] ∧ IsId id ∧ c.findItem k id = none ∧
      (∃ t ∈ c.types k, x.typeId = some t.id ∧ Conforms t x) ∧
      (∀ y ∈ c.items k, ¬ Clash k x y) ∧ d = c.addItem k { x with id := some id } := by
  simp only [PutItems, PutItem, hnew]
  apply Iff.intro
  · rintro ⟨id, rest, c', rfl, ⟨hid, hfresh, htype, hclash, rfl⟩, rfl, rfl⟩
    exact ⟨id, rfl, hid, hfresh, htype, hclash, rfl⟩
  · rintro ⟨id, rfl, hid, hfresh, htype, hclash, rfl⟩
    exact ⟨id, [], _, rfl, ⟨hid, hfresh, htype, hclash, rfl⟩, rfl, rfl⟩

/-- Looking up one id returns the record of that id, if any. -/
theorem documented_getItemsByID {k : Kind} {id : Int} {c d : Contents} {items : List (Item k)}
    (hc : c.WellFormed) (hdoc : Documented (.getItemsByID k [id]) c items d) :
    items = (c.findItem k id).toList := by
  obtain ⟨-, hperm⟩ := hdoc
  have hfilter : ((c.items k).filter fun x => isAmong [id] x.id) =
      (c.findItem k id).toList := by
    simp only [isAmong, List.map_cons, List.map_nil, List.mem_singleton]
    exact Keyed.filter_key_eq (hc.itemIds k)
  rw [hfilter] at hperm
  cases hfind : c.findItem k id with
  | none =>
      rw [hfind] at hperm
      exact hperm.eq_nil
  | some x =>
      rw [hfind] at hperm
      exact List.perm_singleton.mp hperm

end KfMetadata.Mlmd
