/-
# Grouping

Rows are collected by a key into a map from keys to lists of rows. The keys stand in the
order in which they first occur, and the list of a key holds the rows that have it, in
the order of the rows. Together the lists hold every row once.
-/

import KfMetadata.Library.OrderedMap
import Mathlib.Data.List.Induction

namespace OrderedMap

variable {ρ κ α : Type} [DecidableEq κ]

/-! ## Entries -/

theorem get_eq_some_iff {m : OrderedMap κ α} {k : κ} {value : α} :
    m.get k = some value ↔ (k, value) ∈ m.entries := by
  rw [get, Option.map_eq_some_iff]
  apply Iff.intro
  · intro hfound
    obtain ⟨entry, hfind, rfl⟩ := hfound
    obtain ⟨hmem, rfl⟩ := (Keyed.find_eq_some_iff m.nodup).mp hfind
    exact hmem
  · intro hmem
    exact ⟨(k, value), (Keyed.find_eq_some_iff m.nodup).mpr ⟨hmem, rfl⟩, rfl⟩

theorem entries_update_of_mem {m : OrderedMap κ α} {k : κ} (change : Option α → α)
    (hmem : k ∈ m.entries.map Prod.fst) :
    (m.update k change).entries = m.entries.map fun entry =>
      (entry.1, if entry.1 = k then change (some entry.2) else entry.2) := by
  rw [update, dif_pos hmem]

theorem entries_update_of_notMem {m : OrderedMap κ α} {k : κ} (change : Option α → α)
    (hmem : k ∉ m.entries.map Prod.fst) :
    (m.update k change).entries = m.entries ++ [(k, change none)] := by
  rw [update, dif_neg hmem]

theorem mem_entries_set (m : OrderedMap κ α) (k : κ) (value : α) {j : κ} {x : α} :
    (j, x) ∈ (m.set k value).entries ↔ if j = k then x = value else (j, x) ∈ m.entries := by
  by_cases hmem : k ∈ m.entries.map Prod.fst
  · rw [set, entries_update_of_mem _ hmem, List.mem_map]
    apply Iff.intro
    · rintro ⟨entry, hentry, heq⟩
      obtain ⟨rfl, rfl⟩ := Prod.mk.inj heq
      by_cases hkey : entry.1 = k
      · rw [if_pos hkey, if_pos hkey]
      · rw [if_neg hkey, if_neg hkey]
        exact hentry
    · intro hx
      by_cases hkey : j = k
      · rw [if_pos hkey] at hx
        obtain ⟨entry, hentry, hfst⟩ := List.mem_map.mp hmem
        exact ⟨entry, hentry, by rw [if_pos hfst, hfst, hx, hkey]⟩
      · rw [if_neg hkey] at hx
        exact ⟨(j, x), hx, by rw [if_neg hkey]⟩
  · rw [set, entries_update_of_notMem _ hmem, List.mem_append, List.mem_singleton]
    by_cases hkey : j = k
    · subst hkey
      have hnot : (j, x) ∉ m.entries := fun hx => hmem (List.mem_map_of_mem hx)
      simp [hnot]
    · simp [hkey]

theorem get_set (m : OrderedMap κ α) (k j : κ) (value : α) :
    (m.set k value).get j = if j = k then some value else m.get j := by
  apply Option.ext
  intro x
  rw [get_eq_some_iff, mem_entries_set]
  split
  · exact ⟨fun hx => congrArg some hx.symm, fun hx => (Option.some.inj hx).symm⟩
  · exact get_eq_some_iff.symm

/-- Maps whose values correspond, after a change that respects this. -/
theorem entries_update_map {β : Type} (g : α → β) {m : OrderedMap κ α} {m' : OrderedMap κ β}
    (hsame : m.entries.map (fun entry => (entry.1, g entry.2)) = m'.entries) (k : κ)
    {change : Option α → α} {change' : Option β → β}
    (hchange : ∀ o, g (change o) = change' (o.map g)) :
    (m.update k change).entries.map (fun entry => (entry.1, g entry.2)) =
      (m'.update k change').entries := by
  have hkeys : m'.entries.map Prod.fst = m.entries.map Prod.fst := by
    rw [← hsame, List.map_map]
    rfl
  by_cases hmem : k ∈ m.entries.map Prod.fst
  · rw [entries_update_of_mem _ hmem, entries_update_of_mem _ (by rwa [hkeys]), ← hsame,
      List.map_map, List.map_map]
    apply List.map_congr_left
    intro entry _
    by_cases hentry : entry.1 = k
    · have hvalue := hchange (some entry.2)
      simp only [Function.comp_apply, if_pos hentry, hvalue, Option.map_some]
    · simp only [Function.comp_apply, if_neg hentry]
  · rw [entries_update_of_notMem _ hmem, entries_update_of_notMem _ (by rwa [hkeys]), ← hsame,
      List.map_append]
    have hvalue := hchange none
    simp only [List.map_singleton, hvalue, Option.map_none]

/-- Maps whose values correspond, after changes for some rows. -/
theorem entries_foldl_update_map {β : Type} (g : α → β) (key : ρ → κ)
    {change : ρ → Option α → α} {change' : ρ → Option β → β}
    (hchange : ∀ x o, g (change x o) = change' x (o.map g)) (rows : List ρ)
    {m : OrderedMap κ α} {m' : OrderedMap κ β}
    (hsame : m.entries.map (fun entry => (entry.1, g entry.2)) = m'.entries) :
    (rows.foldl (fun m x => m.update (key x) (change x)) m).entries.map
        (fun entry => (entry.1, g entry.2)) =
      (rows.foldl (fun m x => m.update (key x) (change' x)) m').entries := by
  induction rows generalizing m m' with
  | nil => exact hsame
  | cons x rows ih => exact ih (entries_update_map g hsame (key x) (hchange x))

/-- Setting successive indices adds them one after another. -/
theorem entries_foldl_set (f : ρ → α) (rows : List ρ) (n : Nat) (m : OrderedMap Nat α)
    (hless : ∀ i ∈ m.entries.map Prod.fst, i < n) :
    ((rows.zipIdx n).foldl (fun m x => m.set x.2 (f x.1)) m).entries =
      m.entries ++ (rows.zipIdx n).map fun x => (x.2, f x.1) := by
  induction rows generalizing n m with
  | nil => simp
  | cons x rows ih =>
      have hset : (m.set n (f x)).entries = m.entries ++ [(n, f x)] :=
        entries_update_of_notMem _ fun hmem => absurd (hless n hmem) (Nat.lt_irrefl n)
      rw [List.zipIdx_cons, List.foldl_cons, ih, hset, List.append_assoc]
      · rfl
      · intro i hi
        rw [hset, List.map_append, List.mem_append] at hi
        cases hi with
        | inl hold => exact Nat.lt_succ_of_lt (hless i hold)
        | inr hnew =>
            rw [List.mem_singleton.mp hnew]
            exact Nat.lt_succ_self n

/-! ## Collecting by key -/

/-- The rows by their key. -/
def collect (key : ρ → κ) (rows : List ρ) : OrderedMap κ (List ρ) :=
  rows.foldl
    (fun groups x => groups.update (key x) fun
      | some xs => xs ++ [x]
      | none => [x])
    .empty

/-- **What is collected.** For each key, in the order of first occurrence, the rows
that have it, in order. -/
theorem entries_collect (key : ρ → κ) (rows : List ρ) :
    (collect key rows).entries = (rows.map key).eraseDups.map fun k =>
      (k, rows.filter fun x => decide (key x = k)) := by
  induction rows using List.reverseRecOn with
  | nil => rfl
  | append_singleton rows x ih =>
      have hstep : collect key (rows ++ [x]) = (collect key rows).update (key x) fun
          | some xs => xs ++ [x]
          | none => [x] := by
        rw [collect, List.foldl_append]
        rfl
      have hkeys : (collect key rows).entries.map Prod.fst = (rows.map key).eraseDups := by
        rw [ih, List.map_map]
        exact List.map_id _
      rw [hstep, List.map_append, List.map_singleton, List.eraseDups_append]
      by_cases hmem : key x ∈ rows.map key
      · -- The key has occurred, so that its list gets the row at its end.
        have hnone : [key x].removeAll (rows.map key) = [] := by
          rw [List.removeAll, List.filter_singleton, List.elem_eq_true_of_mem hmem]
          rfl
        rw [entries_update_of_mem _ (by rwa [hkeys, List.mem_eraseDups]), ih, hnone,
          List.eraseDups_nil, List.append_nil, List.map_map]
        apply List.map_congr_left
        intro k _
        by_cases hk : k = key x
        · subst hk
          simp [List.filter_append]
        · simp [List.filter_append, hk, Ne.symm hk]
      · have hone : [key x].removeAll (rows.map key) = [key x] := by
          rw [List.removeAll, List.filter_singleton,
            Bool.eq_false_iff.mpr fun helem => hmem (List.mem_of_elem_eq_true helem)]
          rfl
        have hfresh : rows.filter (fun y => decide (key y = key x)) = [] := by
          apply List.filter_eq_nil_iff.mpr
          intro y hy hkey
          exact hmem (List.mem_map.mpr ⟨y, hy, of_decide_eq_true hkey⟩)
        have hold : ∀ k ∈ (rows.map key).eraseDups, k ≠ key x := by
          intro k hk heq
          exact hmem (heq ▸ List.mem_eraseDups.mp hk)
        rw [entries_update_of_notMem _ (by rwa [hkeys, List.mem_eraseDups]), ih, hone,
          List.map_append]
        congr 1
        · apply List.map_congr_left
          intro k hk
          simp [List.filter_append, Ne.symm (hold k hk)]
        · simp [List.eraseDups_cons, List.filter_append, hfresh]

theorem nodup_keys_collect (key : ρ → κ) (rows : List ρ) : (rows.map key).eraseDups.Nodup := by
  have hnodup := (collect key rows).nodup
  rw [entries_collect, List.map_map] at hnodup
  have hkeys := hnodup
  rwa [show (Prod.fst ∘ fun k => (k, rows.filter fun x => decide (key x = k))) = id from rfl,
    List.map_id] at hkeys

end OrderedMap
