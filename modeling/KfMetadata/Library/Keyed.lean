/-
# Lists with distinct keys

A table is a list of rows no two of which have the same key. Looking a key up
by searching the list from the front then finds the one row there is, and the
rows with a given key are at most that row.
-/

import Mathlib.Data.List.Nodup

namespace Keyed

variable {ρ κ : Type} {key : ρ → κ} {rows : List ρ} {k : κ} {x : ρ}

/-- A new row with a new key keeps the keys distinct. -/
theorem nodup_append_singleton (hnodup : (rows.map key).Nodup)
    (hfresh : ∀ y ∈ rows, key y ≠ key x) : ((rows ++ [x]).map key).Nodup := by
  rw [List.map_append, List.map_singleton, List.nodup_append]
  refine ⟨hnodup, List.nodup_singleton _, ?_⟩
  intro a ha b hb
  obtain ⟨y, hy, rfl⟩ := List.mem_map.mp ha
  rw [List.mem_singleton.mp hb]
  exact hfresh y hy

/-- A change of rows that keeps their keys keeps the keys distinct. -/
theorem nodup_map {f : ρ → ρ} (hnodup : (rows.map key).Nodup)
    (hkeys : ∀ x ∈ rows, key (f x) = key x) : ((rows.map f).map key).Nodup := by
  have hsame : (rows.map f).map key = rows.map key := by
    rw [List.map_map]
    exact List.map_congr_left hkeys
  rwa [hsame]

variable [DecidableEq κ]

/-- The row with a given key. -/
def find (key : ρ → κ) (rows : List ρ) (k : κ) : Option ρ :=
  rows.find? fun x => decide (key x = k)

theorem mem_of_find (hfind : find key rows k = some x) : x ∈ rows :=
  List.mem_of_find?_eq_some hfind

theorem key_of_find (hfind : find key rows k = some x) : key x = k := by
  simpa using List.find?_some hfind

/-- Searching for the key of a row finds that very row. -/
theorem find_of_mem (hnodup : (rows.map key).Nodup) (hmem : x ∈ rows) (hkey : key x = k) :
    find key rows k = some x := by
  have hsome : (find key rows k).isSome := by
    rw [find, List.find?_isSome]
    exact ⟨x, hmem, by simp [hkey]⟩
  obtain ⟨y, hy⟩ := Option.isSome_iff_exists.mp hsome
  have hsame : y = x :=
    List.inj_on_of_nodup_map hnodup (mem_of_find hy) hmem ((key_of_find hy).trans hkey.symm)
  rw [hy, hsame]

theorem find_eq_some_iff (hnodup : (rows.map key).Nodup) :
    find key rows k = some x ↔ x ∈ rows ∧ key x = k :=
  ⟨fun hfind => ⟨mem_of_find hfind, key_of_find hfind⟩,
    fun ⟨hmem, hkey⟩ => find_of_mem hnodup hmem hkey⟩

theorem find_eq_none_iff : find key rows k = none ↔ ∀ x ∈ rows, key x ≠ k := by
  simp [find]

theorem find_append (more : List ρ) :
    find key (rows ++ more) k = (find key rows k).or (find key more k) := by
  simp only [find, List.find?_append]

theorem find_singleton : find key [x] k = if key x = k then some x else none := by
  by_cases hkey : key x = k <;> simp [find, hkey]

/-- The rows with a given key are the one that is found, if any. -/
theorem filter_key_eq (hnodup : (rows.map key).Nodup) :
    rows.filter (fun x => decide (key x = k)) = (find key rows k).toList := by
  induction rows with
  | nil => rfl
  | cons y ys ih =>
      obtain ⟨hy, hys⟩ := List.nodup_cons.mp hnodup
      by_cases hkey : key y = k
      · have hnone : ys.filter (fun x => decide (key x = k)) = [] := by
          refine List.filter_eq_nil_iff.mpr fun z hz hzk => hy ?_
          have hsame : key z = key y := (of_decide_eq_true hzk).trans hkey.symm
          exact hsame ▸ List.mem_map_of_mem hz
        simp [find, hkey, hnone]
      · have hrest := ih hys
        simp only [find] at hrest ⊢
        simp [hkey, hrest]

/-- The rows with keys from a list of keys, sorted by those keys. -/
theorem flatMap_filter_perm {key : ρ → κ} {keys : List κ} (hkeys : keys.Nodup) (rows : List ρ) :
    (keys.flatMap fun k => rows.filter fun x => decide (key x = k)).Perm
      (rows.filter fun x => decide (key x ∈ keys)) := by
  induction keys with
  | nil => simp
  | cons k ks ih =>
      obtain ⟨hk, hks⟩ := List.nodup_cons.mp hkeys
      let among : List ρ := rows.filter fun x => decide (key x ∈ k :: ks)
      have hfirst : (among.filter fun x => decide (key x = k)) =
          rows.filter fun x => decide (key x = k) := by
        rw [List.filter_filter]
        apply List.filter_congr
        intro x _
        by_cases hx : key x = k <;> simp [hx]
      have hothers : (among.filter fun x => !decide (key x = k)) =
          rows.filter fun x => decide (key x ∈ ks) := by
        rw [List.filter_filter]
        apply List.filter_congr
        intro x _
        by_cases hx : key x = k
        · simp [hx, hk]
        · simp [hx]
      rw [List.flatMap_cons, ← hfirst]
      apply ((ih hks).append_left _).trans
      rw [← hothers]
      exact List.filter_append_perm _ among

/-- Sorting the rows by their keys loses no row when all keys are among those given. -/
theorem flatMap_filter_perm_of_mem {keys : List κ} (hkeys : keys.Nodup)
    (hmem : ∀ x ∈ rows, key x ∈ keys) :
    (keys.flatMap fun k => rows.filter fun x => decide (key x = k)).Perm rows := by
  have hsorted := @flatMap_filter_perm ρ κ _ key keys hkeys rows
  rwa [List.filter_eq_self.mpr fun x hx => decide_eq_true (hmem x hx)] at hsorted

/-- A change of rows that keeps their keys changes what is found, nothing else. -/
theorem find_map {f : ρ → ρ} (hkeys : ∀ x ∈ rows, key (f x) = key x) :
    find key (rows.map f) k = (find key rows k).map f := by
  induction rows with
  | nil => rfl
  | cons y ys ih =>
      have hy := hkeys y List.mem_cons_self
      have hys := ih fun x hx => hkeys x (List.mem_cons_of_mem y hx)
      simp only [find] at hys ⊢
      by_cases hkey : key y = k
      · simp [hy, hkey]
      · simp [hy, hkey, hys]

end Keyed
