/-
# The order in which schemas are visited

Registration visits the schemas of a set in an unspecified order, and may stop
at any of them. A run that registers all of them shows that any other run can:
what has been registered at any moment is what the first run has registered in
the end, so no put is refused for its properties. Nor is one refused for want of
an id, as every run takes as many ids as it adds types. So all runs from one
store fail, or all succeed and leave the same types.
-/

import KfMetadata.Schema.Termination
import Mathlib.Data.Finset.Card

namespace KfMetadata.Schema

open Mlmd Service Remote Remote.Program

variable {E : Effect api Store} {s t u : Store}

/-! ## Strict puts -/

/-- A type of a new name is refused only when no id is left for it. -/
def RefusesOnlyWhenFull (E : Effect api Store) : Prop :=
  ∀ (k : Kind) (type : TypeRecord) (s t : Store) (error : String),
    E (.putType k type createOptions) s (.error error) t → type.id = none →
      s.findType k type.getName = none → ∀ id, IsId id → ∃ u ∈ s.contents.types k, u.id = id

/-- The properties that the type of a given name is stored with. -/
def typeProperties (s : Store) (k : Kind) (name : String) : Option (StringMap PropertyType) :=
  (s.findType k name).map StoredType.properties

/-- A strict put finds the type stored as it is, or adds it under a new name and id. -/
theorem strictPut_cases (hE : Lawful E) {k : Kind} {type : TypeRecord} {id : Int}
    (hput : E (.putType k type createOptions) s (.ok id) t) :
    t = s ∧ typeProperties s k type.getName = some type.properties ∨
    s.findType k type.getName = none ∧ IsId id ∧ (∀ u ∈ s.contents.types k, u.id ≠ id) ∧
      t.contents = s.contents.addType k ⟨id, type.getName, type.properties⟩ := by
  have hdoc := hE.accepted (.putType k type createOptions) s t id hput
  cases hfind : s.findType k type.getName with
  | none =>
      rw [Store.findType] at hfind
      simp only [Documented, PutType, hfind] at hdoc
      exact Or.inr ⟨rfl, hdoc⟩
  | some old =>
      have hsame : old.properties = type.properties := by
        rw [Store.findType] at hfind
        simp only [Documented, PutType, hfind] at hdoc
        exact hdoc.2.1.2.2.symm
      refine Or.inl ⟨putType_of_same hE hput hfind hsame, ?_⟩
      rw [typeProperties, hfind, Option.map_some, hsame]

/-! ## Ids -/

/-- The ids that no type of the kind has. -/
def freeIds (c : Contents) (k : Kind) : Finset Int :=
  ((Finset.range (2 ^ 63)).image fun n : Nat => (n : Int)).filter fun id =>
    IsId id ∧ ∀ u ∈ c.types k, u.id ≠ id

/-- The number of types that the store can have at most, if its types stay. -/
def room (s : Store) (k : Kind) : Nat :=
  (freeIds s.contents k).card + (s.contents.types k).length

theorem mem_freeIds {c : Contents} {k : Kind} {id : Int} :
    id ∈ freeIds c k ↔ IsId id ∧ ∀ u ∈ c.types k, u.id ≠ id := by
  rw [freeIds, Finset.mem_filter, Finset.mem_image]
  apply Iff.intro
  · exact And.right
  · intro hfree
    have hpos : 0 < id := hfree.1.1
    have hlt : id < 2 ^ 63 := hfree.1.2
    refine ⟨⟨id.toNat, Finset.mem_range.mpr ?_, ?_⟩, hfree⟩
    · omega
    · omega

/-- A new type takes one of the free ids. -/
theorem card_freeIds_addType {k : Kind} {id : Int} {name : String}
    {properties : StringMap PropertyType} (hid : IsId id)
    (hnew : ∀ v ∈ s.contents.types k, v.id ≠ id)
    (ht : t.contents = s.contents.addType k ⟨id, name, properties⟩) :
    (freeIds t.contents k).card + 1 = (freeIds s.contents k).card := by
  have hfree : freeIds t.contents k = (freeIds s.contents k).erase id := by
    ext other
    rw [Finset.mem_erase, mem_freeIds, mem_freeIds, ht, Contents.types_addType_self]
    apply Iff.intro
    · intro ⟨hother, hunused⟩
      refine ⟨?_, hother, fun v hv => hunused v (List.mem_append_left _ hv)⟩
      exact (hunused _ (List.mem_append_right _ (List.mem_singleton_self _))).symm
    · intro ⟨hne, hother, hunused⟩
      refine ⟨hother, fun v hv => ?_⟩
      rcases List.mem_append.mp hv with hold | hlast
      · exact hunused v hold
      · rw [List.mem_singleton.mp hlast]
        exact hne.symm
  rw [hfree]
  exact Finset.card_erase_add_one (mem_freeIds.mpr ⟨hid, hnew⟩)

/-- So it takes up room, where there was some. -/
theorem room_addType {k : Kind} {id : Int} {name : String} {properties : StringMap PropertyType}
    (hid : IsId id) (hnew : ∀ v ∈ s.contents.types k, v.id ≠ id)
    (ht : t.contents = s.contents.addType k ⟨id, name, properties⟩) (j : Kind) :
    room t j = room s j := by
  by_cases hj : j = k
  · subst hj
    have hcard := card_freeIds_addType hid hnew ht
    rw [room, room, ht, Contents.types_addType_self, List.length_append, ← ht]
    simp only [List.length_singleton]
    omega
  · have htypes : t.contents.types j = s.contents.types j := by
      rw [ht, Contents.types_addType_of_ne _ hj]
    simp only [room, freeIds, htypes]

/-! ## Types that are stored -/

/-- `t` has all types of `s`, with the same properties. -/
def TypesWithin (s t : Store) : Prop :=
  ∀ k name properties, typeProperties s k name = some properties →
    typeProperties t k name = some properties

/-- A store with the types of another and with room for as many has an id for a type that
only the other has. -/
theorem exists_freeId {k : Kind} {name : String} (hwithin : TypesWithin s t)
    (hroom : room s k = room t k) (hmissing : s.findType k name = none)
    (hstored : (typeProperties t k name).isSome) : ∃ id, id ∈ freeIds s.contents k := by
  have hsub : (name :: (s.contents.types k).map StoredType.name) ⊆
      (t.contents.types k).map StoredType.name := by
    have hnames : ∀ other, (typeProperties t k other).isSome →
        other ∈ (t.contents.types k).map StoredType.name := by
      intro other hother
      obtain ⟨stored, hfound, -⟩ := Option.map_eq_some_iff.mp (Option.some_get hother).symm
      obtain ⟨hmem, hname⟩ := (Contents.findType_eq_some_iff t.wellFormed).mp hfound
      exact List.mem_map.mpr ⟨stored, hmem, hname⟩
    intro other hother
    apply hnames
    rcases List.mem_cons.mp hother with rfl | hold
    · exact hstored
    · obtain ⟨stored, hmem, rfl⟩ := List.mem_map.mp hold
      have hfound : s.findType k stored.name = some stored :=
        (Contents.findType_eq_some_iff s.wellFormed).mpr ⟨hmem, rfl⟩
      rw [hwithin k stored.name stored.properties (by rw [typeProperties, hfound]; rfl)]
      rfl
  have hnodup : (name :: (s.contents.types k).map StoredType.name).Nodup := by
    apply List.nodup_cons.mpr
    refine ⟨fun hmem => ?_, s.wellFormed.typeNames k⟩
    obtain ⟨stored, hstored', rfl⟩ := List.mem_map.mp hmem
    have hfound : s.findType k stored.name = some stored :=
      (Contents.findType_eq_some_iff s.wellFormed).mpr ⟨hstored', rfl⟩
    rw [hmissing] at hfound
    cases hfound
  have hlength := (hnodup.subperm hsub).length_le
  simp only [List.length_cons, List.length_map] at hlength
  apply Finset.card_pos.mp
  unfold room at hroom
  omega

theorem typeProperties_addType {k : Kind} {id : Int} {added : String}
    {properties : StringMap PropertyType} (hmissing : s.findType k added = none)
    (ht : t.contents = s.contents.addType k ⟨id, added, properties⟩) (j : Kind) (name : String) :
    typeProperties t j name =
      if j = k ∧ name = added then some properties else typeProperties s j name := by
  rw [typeProperties, typeProperties, Store.findType, ht, Contents.findType_addType]
  by_cases hsame : j = k ∧ name = added
  · obtain ⟨rfl, rfl⟩ := hsame
    rw [if_pos ⟨rfl, hmissing, rfl⟩, if_pos ⟨rfl, rfl⟩]
    rfl
  · rw [if_neg hsame, if_neg]
    · rfl
    · rintro ⟨hj, -, hname⟩
      exact hsame ⟨hj, hname.symm⟩

/-! ## What registration does to the store -/

/-- A read, or the strict put of a type of the family. -/
def Registers (D : Resource → TypeRecord → Prop) (op : Call) : Prop :=
  op.IsRead ∨ ∃ r type, D r type ∧ op = .putType r.kind type createOptions

/-- Such a call leaves the store as it is, or adds a type of the family. -/
theorem Registers.cases (hE : Lawful E) {D : Resource → TypeRecord → Prop} {op : Call}
    (hop : Registers D op) {reply : api.Reply op} (heffect : E op s reply t) :
    t = s ∨ ∃ r type id, D r type ∧ s.findType r.kind type.getName = none ∧ IsId id ∧
      (∀ u ∈ s.contents.types r.kind, u.id ≠ id) ∧
      t.contents = s.contents.addType r.kind ⟨id, type.getName, type.properties⟩ := by
  rcases hop with hread | ⟨r, type, hD, rfl⟩
  · exact Or.inl (hE.sound.read hread heffect)
  · cases reply with
    | error e => exact Or.inl (hE.refused _ s t e heffect)
    | ok id =>
        rcases strictPut_cases hE heffect with ⟨hsame, -⟩ | hadded
        · exact Or.inl hsame
        · exact Or.inr ⟨r, type, id, hD, hadded⟩

theorem registers_registerType {D : Resource → TypeRecord → Prop} {r : Resource}
    {type : TypeRecord} (hD : D r type) :
    (registerType r type).run.Uses (I := api) (Registers D) :=
  uses_registerType (fun _ => Or.inl) (Or.inr ⟨r, type, hD, rfl⟩)

theorem registers_registerIn {D : Resource → TypeRecord → Prop} {ss : SchemaSet} {depth : Nat}
    {order : List String} (hD : ∀ r type, Defines ss depth order r type → D r type) :
    (registerIn ss depth order).run.Uses (I := api) (Registers D) :=
  uses_registerIn (fun _ => Or.inl) fun r type htype => Or.inr ⟨r, type, hD r type htype, rfl⟩

/-- The types of `s` are still there, and each new type has taken an id. -/
structure Grown (s t : Store) : Prop where
  within : TypesWithin s t
  room : ∀ k, room t k = room s k

theorem Grown.refl (s : Store) : Grown s s := ⟨fun _ _ _ hstored => hstored, fun _ => rfl⟩

theorem Grown.trans (hfirst : Grown s t) (hsecond : Grown t u) : Grown s u where
  within k name properties hstored :=
    hsecond.within k name properties (hfirst.within k name properties hstored)
  room k := (hsecond.room k).trans (hfirst.room k)

theorem Grown.call (hE : Lawful E) {D : Resource → TypeRecord → Prop} (hgrown : Grown s t)
    {op : Call} (hop : Registers D op) {reply : api.Reply op} (heffect : E op t reply u) :
    Grown s u := by
  rcases hop.cases hE heffect with rfl | ⟨r, type, id, -, hmissing, hid, hfresh, hu⟩
  · exact hgrown
  · apply hgrown.trans
    constructor
    · intro k name properties hstored
      rw [typeProperties_addType hmissing hu]
      split
      · rename_i hsame
        obtain ⟨rfl, rfl⟩ := hsame
        rw [typeProperties, hmissing] at hstored
        cases hstored
      · exact hstored
    · exact room_addType hid hfresh hu

/-- What has been registered stays within a store that has all of the family. -/
theorem TypesWithin.call (hE : Lawful E) {D : Resource → TypeRecord → Prop}
    (hD : ∀ r type, D r type → typeProperties u r.kind type.getName = some type.properties)
    (hwithin : TypesWithin s u) {op : Call} (hop : Registers D op) {reply : api.Reply op}
    (heffect : E op s reply t) : TypesWithin t u := by
  rcases hop.cases hE heffect with rfl | ⟨r, type, id, htype, hmissing, -, -, ht⟩
  · exact hwithin
  · intro k name properties hstored
    rw [typeProperties_addType hmissing ht] at hstored
    split at hstored
    · rename_i hsame
      obtain ⟨rfl, rfl⟩ := hsame
      cases hstored
      exact hD r type htype
    · exact hwithin k name properties hstored

theorem grown_registerIn (hE : Lawful E) {ss : SchemaSet} {depth : Nat} {order : List String}
    {result : Except Failure (List String)}
    (hrun : (registerIn ss depth order).run.Runs E s result t) : Grown s t :=
  hrun.preserves (P := Grown s) (registers_registerIn fun _ _ hD => hD)
    (fun _ _ _ _ hop heffect hgrown => hgrown.call hE hop heffect) (Grown.refl s)

/-! ## A run that succeeds shows that another one does -/

/-- The store `t` has all types of the family and those of `s`, and room for no more. -/
structure Completes (D : Resource → TypeRecord → Prop) (s t : Store) : Prop where
  family : ∀ r type, D r type → typeProperties t r.kind type.getName = some type.properties
  grown : Grown s t

theorem Completes.call (hE : Lawful E) {D : Resource → TypeRecord → Prop}
    (hcompletes : Completes D s u) {op : Call} (hop : Registers D op) {reply : api.Reply op}
    (heffect : E op s reply t) : Completes D t u where
  family := hcompletes.family
  grown :=
    { within := hcompletes.grown.within.call hE hcompletes.family hop heffect
      room := fun k =>
        (hcompletes.grown.room k).trans (((Grown.refl s).call hE hop heffect).room k).symm }

/-- A type of the family is registered. -/
theorem registerType_of_completes (hE : Available E) (hfull : RefusesOnlyWhenFull E)
    {D : Resource → TypeRecord → Prop} (hcompletes : Completes D s u) {r : Resource}
    {type : TypeRecord} (hD : D r type) (hid : type.id = none)
    (htrim : Text.trimPrefix type.getName r.typesCollection = type.getName)
    {result : Except Failure Unit} (hrun : (registerType r type).run.Runs E s result t) :
    result = .ok () := by
  have hstored := hcompletes.family r type hD
  obtain ⟨reply, hput, rfl⟩ := runs_registerType.mp hrun
  cases reply with
  | ok value => rfl
  | error e =>
      exfalso
      rcases runs_putType.mp hput with ⟨message, -, hrefused⟩ | ⟨id, v, hcall, hget⟩
      · -- neither the stored properties nor the ids are a reason to refuse the type
        cases hfind : s.findType r.kind type.getName with
        | none =>
            obtain ⟨free, hfree⟩ := exists_freeId hcompletes.grown.within
              (hcompletes.grown.room r.kind).symm hfind (by rw [hstored]; rfl)
            obtain ⟨hfreeId, hunused⟩ := mem_freeIds.mp hfree
            obtain ⟨taken, hmem, htaken⟩ :=
              hfull r.kind type s t message hrefused hid hfind free hfreeId
            exact hunused taken hmem htaken
        | some old =>
            have hold := hcompletes.grown.within r.kind type.getName old.properties
              (by rw [typeProperties, hfind]; rfl)
            rw [hstored] at hold
            exact hE.putType_stored r.kind type createOptions s t message old hrefused hfind hid
              ⟨rfl, rfl, Option.some.inj hold⟩
      · obtain ⟨-, hmissing⟩ := getType_error_of_available hE hget
        rw [htrim, (findType_of_putType hE.toLawful hcall).1] at hmissing
        cases hmissing

/-- So are all types that are visited. -/
theorem registerIn_of_completes (hE : Available E) (hfull : RefusesOnlyWhenFull E)
    {ss : SchemaSet} {depth : Nat} {D : Resource → TypeRecord → Prop} {order : List String}
    (hdefined : ∀ id ∈ order, ∃ found, schemaType ss depth id = .ok found)
    (hD : ∀ r type, Defines ss depth order r type → D r type)
    (htrim : ∀ r type, D r type →
      Text.trimPrefix type.getName r.typesCollection = type.getName)
    (hcompletes : Completes D s u) {result : Except Failure (List String)}
    (hrun : (registerIn ss depth order).run.Runs E s result t) :
    (∃ types, result = .ok types) ∧ Completes D t u := by
  apply registerIn_succeeds (P := fun w => Completes D w u) hdefined ?_ hcompletes hrun
  intro r type hdefines v w result' hcompletes' hregister
  have htype : D r type := hD r type hdefines
  obtain ⟨id, -, hsome⟩ := hdefines
  apply And.intro
  · exact registerType_of_completes hE hfull hcompletes' htype (id_of_schemaType hsome)
      (htrim r type htype) hregister
  · exact hregister.preserves (P := fun w => Completes D w u) (registers_registerType htype)
      (fun _ _ _ _ hop heffect h => h.call hE.toLawful hop heffect) hcompletes'

/-! ## Two orders -/

/-- The name of the type that a schema defines, if it defines one. -/
def definedName (ss : SchemaSet) (depth : Nat) (id : String) : Option String :=
  match schemaType ss depth id with
  | .ok (some (_, type)) => some type.getName
  | _ => none

/-- A successful registration returns the names of the types in the order of the visit. -/
theorem registerIn_names {ss : SchemaSet} {depth : Nat} {order types : List String}
    (hrun : (registerIn ss depth order).run.Runs E s (.ok types) t) :
    types = order.filterMap (definedName ss depth) := by
  induction order generalizing s types with
  | nil =>
      obtain ⟨hresult, -⟩ := runs_run_pure.mp hrun
      cases hresult
      rfl
  | cons id ids ih =>
      rcases registerIn_cons_ok hrun with
        ⟨hnone, hloop⟩ | ⟨r, type, u, later, hsome, -, hloop, rfl⟩
      · rw [List.filterMap_cons_none (by rw [definedName, hnone])]
        exact ih hloop
      · rw [List.filterMap_cons_some (by rw [definedName, hsome]), ih hloop]

/-- The names of the types that the schemas define start with no collection. -/
def NamesOutside (ss : SchemaSet) : Prop :=
  ∀ depth, ∀ id ∈ ss, ∀ space typename, typeName ss depth id = .ok (space, typename) →
    Text.hasPrefix (space ++ "/" ++ typename) artifactTypesCollection = false ∧
      Text.hasPrefix (space ++ "/" ++ typename) executionTypesCollection = false

/-- A defined type has the name that the schema gives it. -/
theorem getName_of_schemaType {ss : SchemaSet} {depth : Nat} {id : String} {r : Resource}
    {type : TypeRecord} (htype : schemaType ss depth id = .ok (some (r, type))) :
    ∃ space typename, typeName ss depth id = .ok (space, typename) ∧
      type.getName = space ++ "/" ++ typename := by
  obtain ⟨space, typename, properties, hname, hnew⟩ := schemaType_eq_ok htype
  exact ⟨space, typename, hname, (newType_eq_ok hnew).2⟩

theorem NamesOutside.trimPrefix {ss : SchemaSet} (hnames : NamesOutside ss) {depth : Nat}
    {order : List String} (hvisits : Visits ss order) {r : Resource} {type : TypeRecord}
    (hD : Defines ss depth order r type) :
    Text.trimPrefix type.getName r.typesCollection = type.getName := by
  obtain ⟨id, hid, htype⟩ := hD
  obtain ⟨space, typename, hname, hgetName⟩ := getName_of_schemaType htype
  obtain ⟨hartifact, hexecution⟩ := hnames depth id ((hvisits.2 id).mp hid) space typename hname
  apply Text.trimPrefix_of_not_hasPrefix
  rw [hgetName]
  cases r with
  | artifact => exact hartifact
  | execution => exact hexecution

/-- If a visit in one order registers all types, so does one in any other order, and it
leaves no type that the first does not leave. -/
theorem registerIn_of_other (hE : Available E) (hfull : RefusesOnlyWhenFull E) {ss : SchemaSet}
    (hnames : NamesOutside ss) {depth : Nat} {order order' types : List String}
    (hvisits : Visits ss order) (hvisits' : Visits ss order')
    (hfirst : (registerIn ss depth order).run.Runs E s (.ok types) t)
    {result : Except Failure (List String)}
    (hsecond : (registerIn ss depth order').run.Runs E s result u) :
    (∃ types', result = .ok types') ∧ TypesWithin u t := by
  obtain ⟨hall, hdefined⟩ := registerIn_ok hE.toLawful hfirst
  have hmem : ∀ id ∈ order', id ∈ order := by
    intro id hid
    exact (hvisits.2 id).mpr ((hvisits'.2 id).mp hid)
  have hcompletes : Completes (Defines ss depth order) s t := by
    constructor
    · intro r type hD
      obtain ⟨old, hold, hsame⟩ := (hall r type hD).stored
      rw [typeProperties, hold, Option.map_some, hsame]
    · exact grown_registerIn hE.toLawful hfirst
  obtain ⟨hok, hcompletes'⟩ := registerIn_of_completes hE hfull
    (fun id hid => hdefined id (hmem id hid))
    (fun r type ⟨id, hid, htype⟩ => ⟨id, hmem id hid, htype⟩)
    (fun r type hD => hnames.trimPrefix hvisits hD) hcompletes hsecond
  exact ⟨hok, hcompletes'.grown.within⟩

/-- Two stores with the types of each other have the same. -/
theorem TypesWithin.antisymm (hst : TypesWithin s t) (hts : TypesWithin t s) (k : Kind)
    (name : String) : typeProperties s k name = typeProperties t k name := by
  cases hs : typeProperties s k name with
  | some properties => exact (hst k name properties hs).symm
  | none =>
      cases ht : typeProperties t k name with
      | none => rfl
      | some properties =>
          rw [hts k name properties ht] at hs
          cases hs

/-- **Order of visits.** Two registrations of a set without cycles from the same store, in
any two orders of its schemas, both fail, or both succeed, return the same names up to
order, and leave the same types with the same properties. -/
theorem registerSchemas_order (hE : Available E) (hfull : RefusesOnlyWhenFull E) {ss : SchemaSet}
    (hacyclic : NoCycle ss) (hnames : NamesOutside ss) :
    ∃ bound, ∀ depth ≥ bound, ∀ order order', Visits ss order → Visits ss order' →
      ∀ s t t' result result',
        (registerSchemas (.ok ss) depth order).run.Runs E s result t →
        (registerSchemas (.ok ss) depth order').run.Runs E s result' t' →
        (∃ e e', result = .error (.error e) ∧ result' = .error (.error e')) ∨
        ∃ types types', result = .ok types ∧ result' = .ok types' ∧ types.Perm types' ∧
          ∀ k name, typeProperties t k name = typeProperties t' k name := by
  obtain ⟨bound, hbound⟩ := hacyclic.exists_resolves
  refine ⟨bound, ?_⟩
  intro depth hdepth order order' hvisits hvisits' s t t' result result' hfirst hsecond
  have hresolves : ∀ id, Resolves ss depth id := fun id => (hbound id).mono hdepth
  have hgenuine : ∀ {order : List String} {result : Except Failure (List String)} {t : Store},
      (registerIn ss depth order).run.Runs E s result t →
      (∃ types, result = .ok types) ∨ ∃ e, result = .error (.error e) := by
    intro order result t hrun
    cases result with
    | ok types => exact Or.inl ⟨types, rfl⟩
    | error failure =>
        cases failure with
        | tooDeep => exact absurd rfl (registerIn_ne_tooDeep hresolves hrun)
        | error e => exact Or.inr ⟨e, rfl⟩
  rcases hgenuine hfirst with ⟨types, rfl⟩ | ⟨e, rfl⟩
  · obtain ⟨⟨types', rfl⟩, hwithin'⟩ :=
      registerIn_of_other hE hfull hnames hvisits hvisits' hfirst hsecond
    obtain ⟨-, hwithin⟩ := registerIn_of_other hE hfull hnames hvisits' hvisits hsecond hfirst
    refine Or.inr ⟨types, types', rfl, rfl, ?_, hwithin.antisymm hwithin'⟩
    rw [registerIn_names hfirst, registerIn_names hsecond]
    apply List.Perm.filterMap
    apply (List.perm_ext_iff_of_nodup hvisits.1 hvisits'.1).mpr
    intro id
    rw [hvisits.2, hvisits'.2]
  · rcases hgenuine hsecond with ⟨types', rfl⟩ | ⟨e', rfl⟩
    · obtain ⟨⟨types, htypes⟩, -⟩ :=
        registerIn_of_other hE hfull hnames hvisits' hvisits hsecond hfirst
      cases htypes
    · exact Or.inl ⟨e, e', rfl, rfl⟩

/-! ## A store that refuses only what it must -/

/-- Every documented outcome may happen, and a call is refused only if there is none. -/
def willing : Effect api Store
  | op, s, .ok result, t => Documented op s.contents result t.contents
  | op, s, .error _, t => t = s ∧ ∀ result (u : Store), ¬ Documented op s.contents result u.contents

theorem willing_available : Available willing where
  accepted _ _ _ _ heffect := heffect
  refused _ _ _ _ heffect := heffect.1
  responds := by
    intro op s
    by_cases hsome : ∃ result, ∃ t : Store, Documented op s.contents result t.contents
    · obtain ⟨result, t, hdoc⟩ := hsome
      exact ⟨.ok result, t, hdoc⟩
    · refine ⟨.error "refused", s, rfl, fun result t hdoc => hsome ⟨result, t, hdoc⟩⟩
  getType_stored := by
    intro k name s t error heffect
    cases hfind : s.findType k name with
    | none => rfl
    | some stored =>
        refine absurd ⟨rfl, ?_⟩ (heffect.2 stored.toRecord s)
        rw [Store.findType] at hfind
        rw [hfind, Option.map_some]
  getItemsByID_stored := by
    intro k id s t error heffect
    exact absurd ⟨rfl, List.Perm.refl _⟩ (heffect.2 _ s)
  putType_stored := by
    intro k type opts s t error old heffect hfind _ hadmits
    apply heffect.2 old.id ⟨s.contents.setProperties k type.getName type.properties,
      s.wellFormed.setProperties type.getName type.properties⟩
    rw [Store.findType] at hfind
    simp only [Documented, PutType, hfind]
    exact ⟨trivial, hadmits, trivial⟩

theorem willing_refusesOnlyWhenFull : RefusesOnlyWhenFull willing := by
  intro k type s t error heffect _ hmissing id hid
  by_contra hfree
  have hunused : ∀ u ∈ s.contents.types k, u.id ≠ id := fun u hu hsame => hfree ⟨u, hu, hsame⟩
  rw [Store.findType] at hmissing
  apply heffect.2 id ⟨s.contents.addType k ⟨id, type.getName, type.properties⟩,
    s.wellFormed.addType hmissing hunused⟩
  simp only [Documented, PutType, hmissing]
  exact ⟨hid, hunused, trivial⟩

/-- A set of two schemas that define an artifact type each. -/
def modelAndDataSet : SchemaSet :=
  modelSchema.insert "data_set"
    { id := "data_set"
      properties := (((Finmap.singleton namespacePropertyName (constantText "kubeflow.org")).insert
        kindPropertyName (constantText "data_set")).insert
        versionPropertyName (constantText "alpha")).insert
        categoryPropertyName (constantText artifactCategory)
      allOf := [] }

theorem mem_modelAndDataSet {id : String} :
    id ∈ modelAndDataSet ↔ id = "data_set" ∨ id = "model" := by
  rw [modelAndDataSet, Finmap.mem_insert, modelSchema, Finmap.mem_singleton]

theorem noCycle_modelAndDataSet : NoCycle modelAndDataSet := by
  intro id hcycle
  obtain ⟨ref, ⟨schema, hschema, href⟩, -⟩ := Relation.TransGen.head'_iff.mp hcycle
  rcases mem_modelAndDataSet.mp (Finmap.mem_of_lookup_eq_some hschema) with rfl | rfl
  · cases hschema
    cases href
  · cases hschema
    cases href

/-- The second bound resolves the names, and larger ones find the same. -/
theorem namesOutside_modelAndDataSet : NamesOutside modelAndDataSet := by
  intro depth id hid space typename hname
  cases depth with
  | zero => cases hname
  | succ depth =>
      rcases mem_modelAndDataSet.mp hid with rfl | rfl
      · have hone : typeName modelAndDataSet 1 "data_set" =
            .ok ("kubeflow.org/alpha", "data_set") := rfl
        rw [(typeName_refines _ (Nat.le_add_left 1 depth) _).ok hone] at hname
        cases hname
        decide
      · have hone : typeName modelAndDataSet 1 "model" =
            .ok ("kubeflow.org/alpha", "model") := rfl
        rw [(typeName_refines _ (Nat.le_add_left 1 depth) _).ok hone] at hname
        cases hname
        decide

/-- The two schemas are registered in both orders, with the same outcome. -/
theorem registerSchemas_order_modelAndDataSet :
    ∃ depth result result' t t',
      (registerSchemas (.ok modelAndDataSet) depth ["model", "data_set"]).run.Runs willing
        Store.empty result t ∧
      (registerSchemas (.ok modelAndDataSet) depth ["data_set", "model"]).run.Runs willing
        Store.empty result' t' ∧
      ((∃ e e', result = .error (.error e) ∧ result' = .error (.error e')) ∨
        ∃ types types', result = .ok types ∧ result' = .ok types' ∧ types.Perm types' ∧
          ∀ k name, typeProperties t k name = typeProperties t' k name) := by
  have hvisits : Visits modelAndDataSet ["model", "data_set"] :=
    ⟨by decide, fun id => by rw [mem_modelAndDataSet]; simp [or_comm]⟩
  have hvisits' : Visits modelAndDataSet ["data_set", "model"] :=
    ⟨by decide, fun id => by rw [mem_modelAndDataSet]; simp⟩
  obtain ⟨bound, hbound⟩ := registerSchemas_order willing_available willing_refusesOnlyWhenFull
    noCycle_modelAndDataSet namesOutside_modelAndDataSet
  obtain ⟨result, t, hrun⟩ := exists_runs willing_available.responds
    (registerSchemas (.ok modelAndDataSet) bound ["model", "data_set"]).run Store.empty
  obtain ⟨result', t', hrun'⟩ := exists_runs willing_available.responds
    (registerSchemas (.ok modelAndDataSet) bound ["data_set", "model"]).run Store.empty
  exact ⟨bound, result, result', t, t', hrun, hrun',
    hbound bound (Nat.le_refl _) _ _ hvisits hvisits' _ _ _ _ _ hrun hrun'⟩

end KfMetadata.Schema
