/-
# Maps in insertion order

A map that remembers the order in which its keys were first added: giving a key a new
value leaves it where it is. The entries are a list with distinct keys, and one operation
changes the value of a key, whether it is there already or not.
-/

import KfMetadata.Library.Keyed

/-- A list of entries with distinct keys. -/
structure OrderedMap (κ α : Type) where
  entries : List (κ × α)
  nodup : (entries.map Prod.fst).Nodup
  deriving DecidableEq

namespace OrderedMap

variable {κ α : Type}

/-- The map without entries. -/
def empty : OrderedMap κ α := ⟨[], List.nodup_nil⟩

/-- Whether there are no entries. -/
def isEmpty (m : OrderedMap κ α) : Bool := m.entries.isEmpty

theorem eq_empty_of_isEmpty {m : OrderedMap κ α} (hempty : m.isEmpty = true) : m = empty := by
  obtain ⟨entries, hnodup⟩ := m
  obtain rfl : entries = [] := List.isEmpty_iff.mp hempty
  rfl

variable [DecidableEq κ]

/-- The value of a key. -/
def get (m : OrderedMap κ α) (k : κ) : Option α :=
  (Keyed.find Prod.fst m.entries k).map Prod.snd

/-- Change the value of a key, or add the key at the end. -/
def update (m : OrderedMap κ α) (k : κ) (change : Option α → α) : OrderedMap κ α :=
  if hmem : k ∈ m.entries.map Prod.fst then
    { entries := m.entries.map fun entry =>
        (entry.1, if entry.1 = k then change (some entry.2) else entry.2)
      nodup := Keyed.nodup_map m.nodup fun _ _ => rfl }
  else
    { entries := m.entries ++ [(k, change none)]
      nodup := Keyed.nodup_append_singleton m.nodup fun entry hentry hkey =>
        hmem (List.mem_map.mpr ⟨entry, hentry, hkey⟩) }

/-- Give a key a value. -/
def set (m : OrderedMap κ α) (k : κ) (value : α) : OrderedMap κ α :=
  m.update k fun _ => value

end OrderedMap
