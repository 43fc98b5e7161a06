/-
# Consistency of the store

Records have a type and fit it, and events have both their ends. The store
checks this of what a call puts, and no call takes away what it was checked
against: types only gain properties, and records keep their ids. So consistency
survives every documented call, insertion or update.
-/

import KfMetadata.Mlmd.Api

namespace KfMetadata.Mlmd

/-- The record has a stored type of its kind, and declared properties only. -/
def Typed (c : Contents) {k : Kind} (x : Item k) : Prop :=
  ∃ t ∈ c.types k, x.typeId = some t.id ∧ Conforms t x

/-- A record of this id is stored. -/
def Present (c : Contents) (k : Kind) (id : Int) : Prop := ∃ x ∈ c.items k, x.id = some id

/-- Both ends of the event are stored. -/
def Linked (c : Contents) (e : Event) : Prop :=
  (∃ id, e.artifactId = some id ∧ Present c .artifact id) ∧
    ∃ id, e.executionId = some id ∧ Present c .execution id

/-- What holds of the contents between any two calls. -/
structure Contents.Consistent (c : Contents) : Prop where
  typed : ∀ k, ∀ x ∈ c.items k, Typed c x
  linked : ∀ e ∈ c.events, Linked c e

theorem consistent_empty : Store.empty.contents.Consistent where
  typed _ _ hx := absurd hx List.not_mem_nil
  linked _ he := absurd he List.not_mem_nil

variable {c d : Contents}

theorem Typed.of_grow {k : Kind} {x : Item k} (htyped : Typed c x) (hgrow : c.TypesGrow d) :
    Typed d x := by
  obtain ⟨u, hu, hid, hconforms⟩ := htyped
  obtain ⟨v, hv, hvid, -, hextends⟩ := hgrow k u hu
  exact ⟨v, hv, by rw [hvid, hid], hconforms.extends hextends⟩

theorem present_of_findItem {k : Kind} {id : Int} (hfind : (c.findItem k id).isSome) :
    Present c k id := by
  obtain ⟨x, hx⟩ := Option.isSome_iff_exists.mp hfind
  exact ⟨x, Keyed.mem_of_find hx, Keyed.key_of_find hx⟩

theorem EndpointsStored.linked {e : Event} (hends : EndpointsStored c e) : Linked c e := by
  obtain ⟨-, ⟨aid, haid, ha⟩, ⟨eid, heid, hx⟩⟩ := hends
  exact ⟨⟨aid, haid, present_of_findItem ha⟩, ⟨eid, heid, present_of_findItem hx⟩⟩

/-- Contents are consistent when they keep the types and ids of consistent ones, and
what they have besides is typed and linked. -/
theorem Contents.Consistent.of_kept (hc : c.Consistent) (hgrow : c.TypesGrow d)
    (hpresent : ∀ k id, Present c k id → Present d k id)
    (hitems : ∀ k, ∀ x ∈ d.items k, x ∈ c.items k ∨ Typed d x)
    (hevents : ∀ e ∈ d.events, e ∈ c.events ∨ Linked d e) : d.Consistent where
  typed k x hx := by
    rcases hitems k x hx with hold | hnew
    · exact (hc.typed k x hold).of_grow hgrow
    · exact hnew
  linked e he := by
    rcases hevents e he with hold | hnew
    · obtain ⟨⟨aid, haid, ha⟩, ⟨eid, heid, hx⟩⟩ := hc.linked e hold
      exact ⟨⟨aid, haid, hpresent _ _ ha⟩, ⟨eid, heid, hpresent _ _ hx⟩⟩
    · exact hnew

/-! ## One record -/

theorem PutItem.types {k : Kind} {x : Item k} {id : Int} (hput : PutItem k x c id d) :
    d.types = c.types := by
  unfold PutItem at hput
  split at hput
  · obtain ⟨-, -, -, -, rfl⟩ := hput
    rfl
  · obtain ⟨-, old, -, -, -, rfl⟩ := hput
    rfl

/-- What is put is added, or replaces a record of its id. -/
theorem PutItem.present {k j : Kind} {x : Item k} {id i : Int} (hput : PutItem k x c id d)
    (hi : Present c j i) : Present d j i := by
  obtain ⟨y, hy, hyid⟩ := hi
  unfold PutItem at hput
  split at hput
  · obtain ⟨-, -, -, -, rfl⟩ := hput
    refine ⟨y, ?_, hyid⟩
    by_cases hj : j = k
    · subst hj
      rw [Contents.items_addItem_self]
      exact List.mem_append_left _ hy
    · rwa [Contents.items_addItem_of_ne _ hj]
  · obtain ⟨-, old, -, -, -, rfl⟩ := hput
    by_cases hj : j = k
    · subst hj
      refine ⟨_, by rw [Contents.items_setItem_self]; exact List.mem_map_of_mem hy, ?_⟩
      split
      · rename_i hxid hsame
        exact hsame.symm.trans hyid
      · exact hyid
    · exact ⟨y, by rwa [Contents.items_setItem_of_ne _ hj], hyid⟩

theorem PutItem.consistent {k : Kind} {x : Item k} {id : Int} (hc : c.Consistent)
    (hput : PutItem k x c id d) : d.Consistent := by
  have hgrow : c.TypesGrow d := Contents.TypesGrow.of_eq hput.types
  have hpresent : ∀ j i, Present c j i → Present d j i := fun j i => hput.present
  unfold PutItem at hput
  split at hput
  · obtain ⟨-, -, ⟨u, hu, hid, hconforms⟩, -, rfl⟩ := hput
    refine hc.of_kept hgrow hpresent (fun j y hy => ?_) fun e he => Or.inl he
    by_cases hj : j = k
    · subst hj
      rw [Contents.items_addItem_self, List.mem_append, List.mem_singleton] at hy
      rcases hy with hold | rfl
      · exact Or.inl hold
      · exact Or.inr ⟨u, hu, hid, hconforms⟩
    · rw [Contents.items_addItem_of_ne _ hj] at hy
      exact Or.inl hy
  · obtain ⟨-, old, hfind, -, ⟨u, hu, hid, hconforms⟩, rfl⟩ := hput
    refine hc.of_kept hgrow hpresent (fun j y hy => ?_) fun e he => Or.inl he
    by_cases hj : j = k
    · subst hj
      rw [Contents.items_setItem_self] at hy
      obtain ⟨z, hz, rfl⟩ := List.mem_map.mp hy
      split
      · exact Or.inr ⟨u, hu, hid, hconforms⟩
      · exact Or.inl hz
    · rw [Contents.items_setItem_of_ne _ hj] at hy
      exact Or.inl hy

theorem PutItems.types {k : Kind} {items : List (Item k)} {ids : List Int}
    (hput : PutItems k items c ids d) : d.types = c.types := by
  induction items generalizing c ids with
  | nil =>
      obtain ⟨-, rfl⟩ := hput
      rfl
  | cons x xs ih =>
      obtain ⟨id, rest, c', -, hfirst, hrest⟩ := hput
      rw [ih hrest, hfirst.types]

theorem PutItems.present {k j : Kind} {items : List (Item k)} {ids : List Int} {i : Int}
    (hput : PutItems k items c ids d) (hi : Present c j i) : Present d j i := by
  induction items generalizing c ids with
  | nil =>
      obtain ⟨-, rfl⟩ := hput
      exact hi
  | cons x xs ih =>
      obtain ⟨id, rest, c', -, hfirst, hrest⟩ := hput
      exact ih hrest (hfirst.present hi)

theorem PutItems.consistent {k : Kind} {items : List (Item k)} {ids : List Int}
    (hc : c.Consistent) (hput : PutItems k items c ids d) : d.Consistent := by
  induction items generalizing c ids with
  | nil =>
      obtain ⟨-, rfl⟩ := hput
      exact hc
  | cons x xs ih =>
      obtain ⟨id, rest, c', -, hfirst, hrest⟩ := hput
      exact ih (hfirst.consistent hc) hrest

/-! ## Records of a type -/

/-- Putting a type leaves the records of every type as they are: a type that is new
has a new id, which no record has. -/
theorem PutType.itemsOfType {k : Kind} {type : TypeRecord} {opts : PutTypeOptions} {id : Int}
    (hc : c.Consistent) (hput : PutType k type opts c id d) (name : String) :
    d.itemsOfType k name = c.itemsOfType k name := by
  unfold PutType at hput
  split at hput
  · rename_i hnone
    obtain ⟨-, hfresh, rfl⟩ := hput
    simp only [Contents.itemsOfType, Contents.findType_addType, Contents.items_addType]
    by_cases hname : type.getName = name
    · subst hname
      simp only [hnone, and_self, if_true]
      apply List.filter_eq_nil_iff.mpr
      intro x hx htype
      obtain ⟨t, ht, hid, -⟩ := hc.typed k x hx
      rw [of_decide_eq_true htype] at hid
      exact hfresh t ht (Option.some.inj hid).symm
    · simp only [hname, and_false, if_false]
  · rename_i old hold
    obtain ⟨-, -, rfl⟩ := hput
    simp only [Contents.itemsOfType, Contents.findType_setProperties,
      Contents.items_setProperties]
    by_cases hname : name = type.getName
    · subst hname
      simp only [hold, and_self, if_true, Option.map_some]
    · simp only [hname, and_false, if_false]

/-! ## Any call -/

theorem PutType.items {k : Kind} {type : TypeRecord} {opts : PutTypeOptions} {id : Int}
    (hput : PutType k type opts c id d) : d.items = c.items ∧ d.events = c.events := by
  unfold PutType at hput
  split at hput
  · obtain ⟨-, -, rfl⟩ := hput
    exact ⟨rfl, rfl⟩
  · obtain ⟨-, -, rfl⟩ := hput
    exact ⟨rfl, rfl⟩

/-- Every documented call lets the types grow. -/
theorem Documented.typesGrow {op : Call} {result : op.Result} (hc : c.WellFormed)
    (hdoc : Documented op c result d) : c.TypesGrow d := by
  cases op with
  | putType k type opts => exact (PutType.grows hc hdoc).types
  | putItems k items => exact Contents.TypesGrow.of_eq (PutItems.types hdoc)
  | putEvents events =>
      obtain ⟨now, stored, -, -, rfl⟩ := hdoc
      exact Contents.TypesGrow.of_eq rfl
  | putAttributionsAndAssociations attributions associations =>
      obtain ⟨-, -, rfl⟩ := hdoc
      exact Contents.TypesGrow.of_eq rfl
  | _ =>
      obtain ⟨rfl, -⟩ := hdoc
      exact Contents.TypesGrow.of_eq rfl

/-- No documented call takes a record away. -/
theorem Documented.present {op : Call} {result : op.Result} (hdoc : Documented op c result d)
    {k : Kind} {id : Int} (hid : Present c k id) : Present d k id := by
  cases op with
  | putType k type opts =>
      obtain ⟨hitems, -⟩ := PutType.items hdoc
      rwa [Present, hitems]
  | putItems k items => exact PutItems.present hdoc hid
  | putEvents events =>
      obtain ⟨now, stored, -, -, rfl⟩ := hdoc
      exact hid
  | putAttributionsAndAssociations attributions associations =>
      obtain ⟨-, -, rfl⟩ := hdoc
      exact hid
  | _ =>
      obtain ⟨rfl, -⟩ := hdoc
      exact hid

/-- Every documented call keeps the contents consistent. -/
theorem Contents.Consistent.documented {op : Call} {result : op.Result} (hwf : c.WellFormed)
    (hc : c.Consistent) (hdoc : Documented op c result d) : d.Consistent := by
  have hpresent : ∀ k id, Present c k id → Present d k id := fun k id => hdoc.present
  cases op with
  | putType k type opts =>
      obtain ⟨hitems, hevents⟩ := PutType.items hdoc
      refine hc.of_kept (PutType.grows hwf hdoc).types hpresent ?_ ?_
      · intro j x hx
        exact Or.inl (by rwa [hitems] at hx)
      · intro e he
        exact Or.inl (by rwa [hevents] at he)
  | putItems k items => exact PutItems.consistent hc hdoc
  | putEvents events =>
      obtain ⟨now, stored, -, hends, rfl⟩ := hdoc
      refine hc.of_kept (TypesGrow.of_eq rfl) hpresent (fun _ x hx => Or.inl hx) ?_
      intro e he
      rw [Contents.addEvents, List.mem_append] at he
      apply he.imp_right
      intro hnew
      obtain ⟨e', he', rfl⟩ := List.mem_map.mp hnew
      exact (hends e' he').linked
  | putAttributionsAndAssociations attributions associations =>
      obtain ⟨-, -, rfl⟩ := hdoc
      exact ⟨hc.typed, hc.linked⟩
  | _ =>
      obtain ⟨rfl, -⟩ := hdoc
      exact hc

/-! ## Sound stores -/

theorem Sound.consistent {E : Remote.Effect api Store} (hsound : Sound E) {op : Call}
    {s t : Store} {reply : api.Reply op} (heffect : E op s reply t) (hs : s.contents.Consistent) :
    t.contents.Consistent := by
  rcases hsound.outcome heffect with rfl | ⟨result, hdoc⟩
  · exact hs
  · exact hs.documented s.wellFormed hdoc

theorem Sound.typesGrow {E : Remote.Effect api Store} (hsound : Sound E) {op : Call}
    {s t : Store} {reply : api.Reply op} (heffect : E op s reply t) :
    s.contents.TypesGrow t.contents := by
  rcases hsound.outcome heffect with rfl | ⟨result, hdoc⟩
  · exact Contents.TypesGrow.of_eq rfl
  · exact hdoc.typesGrow s.wellFormed

end KfMetadata.Mlmd
