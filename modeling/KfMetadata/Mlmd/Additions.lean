/-
# What a call adds

How many records and events a documented call adds to the store, and that no call
takes an event or a membership away. An item that has an id replaces a stored one, so
only items without an id are new.
-/

import KfMetadata.Mlmd.Consistent
import Mathlib.Data.List.Basic

namespace KfMetadata.Mlmd

variable {c d : Contents}

/-! ## Links stay -/

/-- Events and memberships stay. -/
structure LinksGrow (c d : Contents) : Prop where
  events : c.events <+: d.events
  attributions : c.attributions ⊆ d.attributions
  associations : c.associations ⊆ d.associations

theorem LinksGrow.refl (c : Contents) : LinksGrow c c :=
  ⟨List.prefix_rfl, Finset.Subset.refl _, Finset.Subset.refl _⟩

theorem LinksGrow.trans {e : Contents} (hfirst : LinksGrow c d) (hsecond : LinksGrow d e) :
    LinksGrow c e :=
  ⟨hfirst.events.trans hsecond.events, hfirst.attributions.trans hsecond.attributions,
    hfirst.associations.trans hsecond.associations⟩

theorem PutItem.links {k : Kind} {x : Item k} {id : Int} (hput : PutItem k x c id d) :
    LinksGrow c d := by
  unfold PutItem at hput
  split at hput
  · obtain ⟨-, -, -, -, rfl⟩ := hput
    exact ⟨List.prefix_rfl, Finset.Subset.refl _, Finset.Subset.refl _⟩
  · obtain ⟨-, old, -, -, -, rfl⟩ := hput
    exact ⟨List.prefix_rfl, Finset.Subset.refl _, Finset.Subset.refl _⟩

theorem PutItems.links {k : Kind} {items : List (Item k)} {ids : List Int}
    (hput : PutItems k items c ids d) : LinksGrow c d := by
  induction items generalizing c ids with
  | nil =>
      obtain ⟨-, rfl⟩ := hput
      exact LinksGrow.refl d
  | cons x xs ih =>
      obtain ⟨id, rest, c', -, hfirst, hrest⟩ := hput
      exact (PutItem.links hfirst).trans (ih hrest)

/-- No call takes a link away. -/
theorem Documented.links {op : Call} {result : op.Result} (hc : c.WellFormed)
    (hdoc : Documented op c result d) : LinksGrow c d := by
  cases op with
  | putType k type opts =>
      have hgrows := PutType.grows hc hdoc
      exact ⟨hgrows.events, hgrows.attributions, hgrows.associations⟩
  | putItems k items => exact PutItems.links hdoc
  | putEvents events =>
      obtain ⟨now, stored, -, -, rfl⟩ := hdoc
      exact ⟨List.prefix_append _ _, Finset.Subset.refl _, Finset.Subset.refl _⟩
  | putAttributionsAndAssociations attributions associations =>
      obtain ⟨-, -, rfl⟩ := hdoc
      exact ⟨List.prefix_rfl, Finset.subset_union_left, Finset.subset_union_left⟩
  | _ =>
      obtain ⟨rfl, -⟩ := hdoc
      exact LinksGrow.refl _

/-! ## Other records stay -/

/-- The calls that leave the types alone and the records of a kind. -/
def Call.Leaves (j : Kind) : Call → Prop
  | .putType .. => False
  | .putItems k _ => j ≠ k
  | _ => True

theorem PutItem.items_of_ne {k j : Kind} {x : Item k} {id : Int} (hj : j ≠ k)
    (hput : PutItem k x c id d) : d.items j = c.items j := by
  unfold PutItem at hput
  split at hput
  · obtain ⟨-, -, -, -, rfl⟩ := hput
    exact Contents.items_addItem_of_ne _ hj
  · obtain ⟨-, old, -, -, -, rfl⟩ := hput
    exact Contents.items_setItem_of_ne _ hj

theorem PutItems.items_of_ne {k j : Kind} {items : List (Item k)} {ids : List Int} (hj : j ≠ k)
    (hput : PutItems k items c ids d) : d.items j = c.items j := by
  induction items generalizing c ids with
  | nil =>
      obtain ⟨-, rfl⟩ := hput
      rfl
  | cons x xs ih =>
      obtain ⟨id, rest, c', -, hfirst, hrest⟩ := hput
      rw [ih hrest, PutItem.items_of_ne hj hfirst]

theorem Documented.leaves {op : Call} {result : op.Result} {j : Kind}
    (hdoc : Documented op c result d) (hleaves : op.Leaves j) :
    d.types = c.types ∧ d.items j = c.items j := by
  cases op with
  | putType k type opts => exact hleaves.elim
  | putItems k items => exact ⟨PutItems.types hdoc, PutItems.items_of_ne hleaves hdoc⟩
  | putEvents events =>
      obtain ⟨now, stored, -, -, rfl⟩ := hdoc
      exact ⟨rfl, rfl⟩
  | putAttributionsAndAssociations attributions associations =>
      obtain ⟨-, -, rfl⟩ := hdoc
      exact ⟨rfl, rfl⟩
  | _ =>
      obtain ⟨rfl, -⟩ := hdoc
      exact ⟨rfl, rfl⟩

/-! ## Counting -/

/-- How many records of a kind a call adds each time it takes effect. -/
def newItems (k : Kind) : Call → Nat
  | .putItems j items => if k = j then items.countP fun x => x.id.isNone else 0
  | _ => 0

/-- How many events a call adds each time it takes effect. -/
def newEvents : Call → Nat
  | .putEvents events => events.length
  | _ => 0

theorem PutItem.length {k : Kind} {x : Item k} {id : Int} (hput : PutItem k x c id d) (j : Kind) :
    (d.items j).length = (c.items j).length + if j = k ∧ x.id.isNone then 1 else 0 := by
  have hother : j ≠ k → d.items j = c.items j := fun hj => PutItem.items_of_ne hj hput
  unfold PutItem at hput
  by_cases hj : j = k
  · subst hj
    split at hput
    · rename_i hid
      obtain ⟨-, -, -, -, rfl⟩ := hput
      rw [Contents.items_addItem_self, List.length_append, hid]
      simp
    · rename_i i hid
      obtain ⟨-, old, -, -, -, rfl⟩ := hput
      rw [Contents.items_setItem_self, List.length_map, hid]
      simp
  · rw [if_neg fun hboth => hj hboth.1, Nat.add_zero, hother hj]

theorem PutItems.length {k : Kind} {items : List (Item k)} {ids : List Int}
    (hput : PutItems k items c ids d) (j : Kind) :
    (d.items j).length = (c.items j).length + newItems j (.putItems k items) := by
  rw [newItems]
  induction items generalizing c ids with
  | nil =>
      obtain ⟨-, rfl⟩ := hput
      simp
  | cons x xs ih =>
      obtain ⟨id, rest, c', -, hfirst, hrest⟩ := hput
      rw [ih hrest, PutItem.length hfirst j]
      by_cases hj : j = k
      · simp only [hj, true_and, if_true, List.countP_cons]
        omega
      · simp [hj]

theorem PutItems.events {k : Kind} {items : List (Item k)} {ids : List Int}
    (hput : PutItems k items c ids d) : d.events = c.events := by
  induction items generalizing c ids with
  | nil =>
      obtain ⟨-, rfl⟩ := hput
      rfl
  | cons x xs ih =>
      obtain ⟨id, rest, c', -, hfirst, hrest⟩ := hput
      rw [ih hrest]
      unfold PutItem at hfirst
      split at hfirst
      · obtain ⟨-, -, -, -, rfl⟩ := hfirst
        rfl
      · obtain ⟨-, old, -, -, -, rfl⟩ := hfirst
        rfl

theorem Documented.length_items {op : Call} {result : op.Result}
    (hdoc : Documented op c result d) (j : Kind) :
    (d.items j).length = (c.items j).length + newItems j op := by
  cases op with
  | putType k type opts => rw [(PutType.items hdoc).1]; rfl
  | putItems k items => exact PutItems.length hdoc j
  | putEvents events =>
      obtain ⟨now, stored, -, -, rfl⟩ := hdoc
      rfl
  | putAttributionsAndAssociations attributions associations =>
      obtain ⟨-, -, rfl⟩ := hdoc
      rfl
  | _ =>
      obtain ⟨rfl, -⟩ := hdoc
      rfl

theorem Documented.length_events {op : Call} {result : op.Result}
    (hdoc : Documented op c result d) : d.events.length = c.events.length + newEvents op := by
  cases op with
  | putType k type opts => rw [(PutType.items hdoc).2]; rfl
  | putItems k items => rw [PutItems.events hdoc]; rfl
  | putEvents events =>
      obtain ⟨now, stored, rfl, -, rfl⟩ := hdoc
      simp [Contents.addEvents, newEvents]
  | putAttributionsAndAssociations attributions associations =>
      obtain ⟨-, -, rfl⟩ := hdoc
      rfl
  | _ =>
      obtain ⟨rfl, -⟩ := hdoc
      rfl

/-! ## Ids -/

/-- Every record has an id in the range of ids. -/
def Contents.Numbered (c : Contents) : Prop :=
  ∀ k, ∀ x ∈ c.items k, ∃ id, x.id = some id ∧ IsId id

theorem PutItem.numbered {k : Kind} {x : Item k} {id : Int} (hc : c.Numbered)
    (hput : PutItem k x c id d) : d.Numbered := by
  intro j y hy
  by_cases hj : j = k
  · subst hj
    unfold PutItem at hput
    split at hput
    · obtain ⟨hid, -, -, -, rfl⟩ := hput
      rw [Contents.items_addItem_self, List.mem_append, List.mem_singleton] at hy
      cases hy with
      | inl hold => exact hc j y hold
      | inr hnew => exact ⟨id, by rw [hnew], hid⟩
    · rename_i i hxid
      obtain ⟨-, old, -, -, -, rfl⟩ := hput
      rw [Contents.items_setItem_self] at hy
      obtain ⟨z, hz, rfl⟩ := List.mem_map.mp hy
      obtain ⟨other, hother, hrange⟩ := hc j z hz
      split
      · rename_i hsame
        exact ⟨other, hsame.symm.trans hother, hrange⟩
      · exact ⟨other, hother, hrange⟩
  · rw [PutItem.items_of_ne hj hput] at hy
    exact hc j y hy

theorem PutItems.numbered {k : Kind} {items : List (Item k)} {ids : List Int} (hc : c.Numbered)
    (hput : PutItems k items c ids d) : d.Numbered := by
  induction items generalizing c ids with
  | nil =>
      obtain ⟨-, rfl⟩ := hput
      exact hc
  | cons x xs ih =>
      obtain ⟨id, rest, c', -, hfirst, hrest⟩ := hput
      exact ih (PutItem.numbered hc hfirst) hrest

/-- Every documented call keeps ids in their range. -/
theorem Contents.Numbered.documented {op : Call} {result : op.Result} (hc : c.Numbered)
    (hdoc : Documented op c result d) : d.Numbered := by
  cases op with
  | putType k type opts =>
      intro j y hy
      rw [(PutType.items hdoc).1] at hy
      exact hc j y hy
  | putItems k items => exact PutItems.numbered hc hdoc
  | putEvents events =>
      obtain ⟨now, stored, -, -, rfl⟩ := hdoc
      exact hc
  | putAttributionsAndAssociations attributions associations =>
      obtain ⟨-, -, rfl⟩ := hdoc
      exact hc
  | _ =>
      obtain ⟨rfl, -⟩ := hdoc
      exact hc

end KfMetadata.Mlmd
