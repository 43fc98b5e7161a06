/-
# A store in memory

The smallest service that keeps the contract of the store: it accepts a call
whenever the documentation allows it, numbers new records one past the largest
id in use, and answers lookups in storage order. It shows that the contract can
be met, and it is what the development evaluates on concrete requests.
-/

import KfMetadata.Mlmd.Api

namespace KfMetadata.Mlmd

open Remote

namespace InMemory

/-- One past the largest id in use. -/
def nextId (ids : List Int) : Int := ids.foldr max 0 + 1

theorem lt_nextId {ids : List Int} {id : Int} (hmem : id ∈ ids) : id < nextId ids := by
  induction ids with
  | nil => cases hmem
  | cons first rest ih =>
      simp only [nextId, List.foldr_cons] at ih ⊢
      rcases List.mem_cons.mp hmem with rfl | hrest
      · omega
      · have hlt := ih hrest
        omega

theorem nextId_pos (ids : List Int) : 0 < nextId ids := by
  induction ids with
  | nil => decide
  | cons first rest ih =>
      simp only [nextId, List.foldr_cons] at ih ⊢
      omega

instance : (k : Kind) → (x y : Item k) → Decidable (Clash k x y)
  | .artifact, _, _ => inferInstanceAs (Decidable False)
  | .execution, _, _ => inferInstanceAs (Decidable False)
  | .context, _, _ => inferInstanceAs (Decidable (_ ∧ _))

def putType (k : Kind) (type : TypeRecord) (opts : PutTypeOptions) (c : Contents) :
    Option (Int × Contents) :=
  match c.findType k type.getName with
  | none =>
      let id := nextId ((c.types k).map StoredType.id)
      if id < 2 ^ 63 then some (id, c.addType k ⟨id, type.getName, type.properties⟩) else none
  | some old =>
      if opts.Admits old.properties type.properties then
        some (old.id, c.setProperties k type.getName type.properties)
      else none

def putItem (k : Kind) (x : Item k) (c : Contents) : Option (Int × Contents) :=
  match x.id with
  | none =>
      let id := nextId ((c.items k).filterMap Item.id)
      if id < 2 ^ 63 ∧ (∃ t ∈ c.types k, x.typeId = some t.id ∧ Conforms t x) ∧
          ∀ y ∈ c.items k, ¬ Clash k x y then
        some (id, c.addItem k { x with id := some id })
      else none
  | some i =>
      match c.findItem k i with
      | none => none
      | some old =>
          if (x.typeId = none ∨ x.typeId = old.typeId) ∧
              ∃ t ∈ c.types k, old.typeId = some t.id ∧ Conforms t x then
            some (i, c.setItem k { x with typeId := old.typeId })
          else none

def putItems (k : Kind) : List (Item k) → Contents → Option (List Int × Contents)
  | [], c => some ([], c)
  | x :: xs, c => do
      let (id, c') ← putItem k x c
      let (rest, d) ← putItems k xs c'
      return (id :: rest, d)

instance (c : Contents) (e : Event) : Decidable (EndpointsStored c e) :=
  decidable_of_iff (e.type ≠ .unknown ∧
      (∃ id ∈ e.artifactId, (c.findItem .artifact id).isSome) ∧
      ∃ id ∈ e.executionId, (c.findItem .execution id).isSome) Iff.rfl

def putEvents (events : List (Option Event)) (c : Contents) : Option (Unit × Contents) :=
  if none ∉ events ∧ ∀ e ∈ events.filterMap id, EndpointsStored c e then
    some ((), c.addEvents ((events.filterMap id).map (Event.stamp 0)))
  else none

def putMembers (attributions : List Attribution) (associations : List Association)
    (c : Contents) : Option (Unit × Contents) :=
  if (∀ a ∈ attributions, (c.findItem .artifact a.artifactId).isSome ∧
        (c.findItem .context a.contextId).isSome) ∧
      ∀ a ∈ associations, (c.findItem .execution a.executionId).isSome ∧
        (c.findItem .context a.contextId).isSome then
    some ((), c.addMembers attributions associations)
  else none

/-- The result of a call and the contents after it, or nothing when refused. -/
def step : (op : Call) → Contents → Option (op.Result × Contents)
  | .putType k type opts, c => putType k type opts c
  | .getType k typeName, c => (c.findType k typeName).map fun t => (t.toRecord, c)
  | .getTypes k, c => some ((c.types k).map StoredType.toRecord, c)
  | .putItems k items, c => putItems k items c
  | .getItemsByID k ids, c => some ((c.items k).filter fun x => isAmong ids x.id, c)
  | .getItems k, c => some (c.items k, c)
  | .getItemsByType k typeName, c => some (c.itemsOfType k typeName, c)
  | .getArtifactsByURI uri, c => some ((c.items .artifact).filter fun x => x.uri = some uri, c)
  | .putEvents events, c => putEvents events c
  | .getEventsByArtifactIDs ids, c =>
      some (c.events.filter fun e => isAmong ids e.artifactId, c)
  | .getEventsByExecutionIDs ids, c =>
      some (c.events.filter fun e => isAmong ids e.executionId, c)
  | .putAttributionsAndAssociations attributions associations, c =>
      putMembers attributions associations c

/-! ## The steps are documented -/

theorem putType_documented {k : Kind} {type : TypeRecord} {opts : PutTypeOptions}
    {c d : Contents} {id : Int} (hput : putType k type opts c = some (id, d)) :
    PutType k type opts c id d := by
  cases hfind : c.findType k type.getName with
  | none =>
      simp only [putType, hfind] at hput
      split at hput
      · rename_i hrange
        obtain ⟨rfl, rfl⟩ := hput
        rw [PutType, hfind]
        refine ⟨⟨nextId_pos _, hrange⟩, fun t ht => ?_, rfl⟩
        exact Int.ne_of_lt (lt_nextId (List.mem_map_of_mem ht))
      · cases hput
  | some old =>
      simp only [putType, hfind] at hput
      split at hput
      · rename_i hadmits
        obtain ⟨rfl, rfl⟩ := hput
        rw [PutType, hfind]
        exact ⟨rfl, hadmits, rfl⟩
      · cases hput

theorem putItem_documented {k : Kind} {x : Item k} {c d : Contents} {id : Int}
    (hput : putItem k x c = some (id, d)) : PutItem k x c id d := by
  cases hid : x.id with
  | none =>
      simp only [putItem, hid] at hput
      split at hput
      · rename_i hrange
        obtain ⟨rfl, rfl⟩ := hput
        rw [PutItem, hid]
        refine ⟨⟨nextId_pos _, hrange.1⟩, ?_, hrange.2.1, hrange.2.2, rfl⟩
        rw [Contents.findItem, Keyed.find_eq_none_iff]
        intro y hy hyid
        have hmem : nextId ((c.items k).filterMap Item.id) ∈ (c.items k).filterMap Item.id :=
          List.mem_filterMap.mpr ⟨y, hy, hyid⟩
        exact absurd (lt_nextId hmem) (Int.lt_irrefl _)
      · cases hput
  | some i =>
      cases hfind : c.findItem k i with
      | none =>
          simp only [putItem, hid, hfind] at hput
          cases hput
      | some old =>
          simp only [putItem, hid, hfind] at hput
          split at hput
          · rename_i htype
            obtain ⟨rfl, rfl⟩ := hput
            rw [PutItem, hid]
            exact ⟨rfl, old, hfind, htype.1, htype.2, rfl⟩
          · cases hput

theorem putItems_documented {k : Kind} {items : List (Item k)} {c d : Contents}
    {ids : List Int} (hput : putItems k items c = some (ids, d)) : PutItems k items c ids d := by
  induction items generalizing c ids with
  | nil =>
      obtain ⟨rfl, rfl⟩ := hput
      exact ⟨rfl, rfl⟩
  | cons x xs ih =>
      simp only [putItems, Option.bind_eq_bind, Option.bind_eq_some_iff, Option.pure_def] at hput
      obtain ⟨⟨id, c'⟩, hfirst, ⟨rest, e⟩, hrest, hresult⟩ := hput
      obtain ⟨rfl, rfl⟩ := hresult
      exact ⟨id, rest, c', rfl, putItem_documented hfirst, ih hrest⟩

theorem putEvents_documented {events : List (Option Event)} {c d : Contents} {result : Unit}
    (hput : putEvents events c = some (result, d)) : PutEvents events c d := by
  unfold putEvents at hput
  split at hput
  · rename_i hok
    obtain ⟨rfl, rfl⟩ := hput
    refine ⟨0, events.filterMap id, ?_, hok.2, rfl⟩
    have hall : ∀ e ∈ events, e ≠ none := fun e he hnone => hok.1 (hnone ▸ he)
    clear hok
    induction events with
    | nil => rfl
    | cons e es ih =>
        have hrest := ih fun e' he' => hall e' (List.mem_cons_of_mem e he')
        cases e with
        | none => exact absurd rfl (hall none List.mem_cons_self)
        | some e =>
            simp only [List.filterMap_cons, id, List.map_cons]
            exact congrArg _ hrest
  · cases hput

theorem step_documented {op : Call} {c d : Contents} {result : op.Result}
    (hstep : step op c = some (result, d)) : Documented op c result d := by
  cases op with
  | putType k type opts => exact putType_documented hstep
  | getType k typeName =>
      obtain ⟨t, hfind, hresult⟩ := Option.map_eq_some_iff.mp hstep
      obtain ⟨rfl, rfl⟩ := hresult
      exact ⟨rfl, by rw [hfind]; rfl⟩
  | putItems k items => exact putItems_documented hstep
  | putEvents events => exact putEvents_documented hstep
  | putAttributionsAndAssociations attributions associations =>
      simp only [step, putMembers] at hstep
      split at hstep
      · rename_i hok
        obtain ⟨rfl, rfl⟩ := hstep
        exact ⟨hok.1, hok.2, rfl⟩
      · cases hstep
  | _ =>
      obtain ⟨rfl, rfl⟩ := hstep
      exact ⟨rfl, List.Perm.refl _⟩

end InMemory

/-! ## Documented calls keep keys distinct -/

theorem PutItem.wellFormed {k : Kind} {x : Item k} {c d : Contents} {id : Int}
    (hc : c.WellFormed) (hput : PutItem k x c id d) : d.WellFormed := by
  unfold PutItem at hput
  split at hput
  · obtain ⟨-, hfresh, -, -, rfl⟩ := hput
    exact hc.addItem (Keyed.find_eq_none_iff.mp hfresh)
  · obtain ⟨-, old, -, -, -, rfl⟩ := hput
    exact hc.setItem _

theorem PutItems.wellFormed {k : Kind} {items : List (Item k)} {c d : Contents}
    {ids : List Int} (hc : c.WellFormed) (hput : PutItems k items c ids d) : d.WellFormed := by
  induction items generalizing c ids with
  | nil =>
      obtain ⟨-, rfl⟩ := hput
      exact hc
  | cons x xs ih =>
      obtain ⟨id, rest, c', -, hfirst, hrest⟩ := hput
      exact ih (hfirst.wellFormed hc) hrest

theorem Documented.wellFormed {op : Call} {c d : Contents} {result : op.Result}
    (hc : c.WellFormed) (hdoc : Documented op c result d) : d.WellFormed := by
  cases op with
  | putType k type opts =>
      simp only [Documented, PutType] at hdoc
      split at hdoc
      · rename_i hfind
        obtain ⟨-, hfresh, rfl⟩ := hdoc
        exact hc.addType hfind hfresh
      · obtain ⟨-, -, rfl⟩ := hdoc
        exact hc.setProperties _ _
  | putItems k items => exact PutItems.wellFormed hc hdoc
  | putEvents events =>
      obtain ⟨now, stored, -, -, rfl⟩ := hdoc
      exact hc.addEvents _
  | putAttributionsAndAssociations attributions associations =>
      obtain ⟨-, -, rfl⟩ := hdoc
      exact hc.addMembers _ _
  | _ =>
      obtain ⟨rfl, -⟩ := hdoc
      exact hc

/-- The service that keeps the store in memory. -/
def inMemory : Server api Store := fun op s =>
  match hstep : InMemory.step op s.contents with
  | none => (.error "refused", s)
  | some (result, d) => (.ok result, ⟨d, (InMemory.step_documented hstep).wellFormed s.wellFormed⟩)

theorem inMemory_ok {op : Call} {s t : Store} {result : op.Result}
    (heffect : inMemory.effect op s (.ok result) t) :
    InMemory.step op s.contents = some (result, t.contents) := by
  simp only [Server.effect, inMemory] at heffect
  split at heffect
  · cases heffect
  · rename_i hstep
    obtain ⟨hresult, rfl⟩ := Prod.mk.inj heffect
    cases hresult
    exact hstep

theorem inMemory_error {op : Call} {s t : Store} {error : String}
    (heffect : inMemory.effect op s (.error error) t) :
    InMemory.step op s.contents = none ∧ t = s := by
  simp only [Server.effect, inMemory] at heffect
  split at heffect
  · rename_i hstep
    exact ⟨hstep, (Prod.mk.inj heffect).2.symm⟩
  · cases heffect

/-- The store in memory keeps the contract. -/
theorem inMemory_available : Available inMemory.effect where
  accepted _ _ _ _ heffect := InMemory.step_documented (inMemory_ok heffect)
  refused _ _ _ _ heffect := (inMemory_error heffect).2
  responds := inMemory.effect_responds
  getType_stored k typeName s t error heffect := by
    exact Option.map_eq_none_iff.mp (inMemory_error heffect).1
  getItemsByID_stored k id s t error heffect := by
    have hnone := (inMemory_error heffect).1
    cases hnone
  putType_stored k type opts s t error old heffect hfind _ hadmits := by
    have hnone := (inMemory_error heffect).1
    rw [Store.findType] at hfind
    simp only [InMemory.step, InMemory.putType, hfind, if_pos hadmits] at hnone
    cases hnone

/-! ## Lost replies -/

/-- The store in memory, except that the replies to some calls get lost: the call has had
its effect, but its caller gets an error. -/
def losing (lost : Call → Bool) : Server api Store := fun op s =>
  (if lost op then .error "reply lost" else (inMemory op s).1, (inMemory op s).2)

/-- The store in memory when any reply may get lost. -/
def lossy : Effect api Store := fun op s reply t => ∃ lost, (losing lost).effect op s reply t

/-- What the store in memory does, with all of its replies, may happen. -/
theorem lossy_of_inMemory {op : Call} {s t : Store} {reply : api.Reply op}
    (heffect : inMemory.effect op s reply t) : lossy op s reply t := ⟨fun _ => false, heffect⟩

theorem lossy_sound : Sound lossy where
  accepted op s t result heffect := by
    obtain ⟨lost, heffect⟩ := heffect
    obtain ⟨hreply, rfl⟩ := Prod.mk.inj heffect
    revert hreply
    cases lost op with
    | true =>
        intro hreply
        cases hreply
    | false =>
        intro hreply
        exact inMemory_available.accepted op s _ result (Prod.ext hreply rfl)
  failed op s t error heffect := by
    obtain ⟨lost, heffect⟩ := heffect
    obtain ⟨-, rfl⟩ := Prod.mk.inj heffect
    exact inMemory_available.toLawful.sound.outcome rfl

end KfMetadata.Mlmd
