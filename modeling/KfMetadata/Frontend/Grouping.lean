/-
# Grouping rows in place

The rows of a list page are objects, and so are the arrays of their fields. Grouping
arranges references to the rows, and changes objects on its way: a row that is alone in its
group cannot be expanded, and in the arrays of the rows below the first one of their group
the text of the grouping column is cleared. The pages make an array for each row, so no two
rows are taken to share theirs.

Every row is in one group, so that every object is changed at most once, and from what
it was when the rows came in. What the references then show is what grouping the rows
as values gives.
-/

import KfMetadata.Frontend.Utils
import KfMetadata.Library.Grouping
import Mathlib.Data.List.Perm.Basic

namespace KfMetadata.Frontend

/-- A row object, which refers to the array of its fields. -/
structure RowObject (Fields : Type) where
  expandState : Option ExpandState
  id : String
  otherFields : Fields

/-- The row objects and the arrays of fields by their references. -/
structure RowHeap (Ref Fields : Type) where
  objects : Ref → RowObject Fields
  arrays : Fields → List Cell

namespace RowHeap

variable {Ref Fields : Type}

/-- The row that an object and its array make up. -/
def row (h : RowHeap Ref Fields) (r : Ref) : Row :=
  ⟨(h.objects r).expandState, (h.objects r).id, h.arrays (h.objects r).otherFields⟩

instance : CoeFun (RowHeap Ref Fields) fun _ => Ref → Row := ⟨row⟩

/-- No two row objects share an array of fields. -/
def Unshared (h : RowHeap Ref Fields) : Prop :=
  Function.Injective fun r => (h.objects r).otherFields

/-! ## The groups -/

/-- The rows by their first field. -/
def flattenedRows (h : RowHeap Ref Fields) (rows : List Ref) : OrderedMap Cell (List Ref) :=
  .collect (fun r => (h r).groupingKey) rows

/-- The values of the first field, in the order in which they first occur. -/
def groupingKeys (h : RowHeap Ref Fields) (rows : List Ref) : List Cell :=
  (rows.map fun r => (h r).groupingKey).eraseDups

/-- The rows with the same first field. -/
def sharing (h : RowHeap Ref Fields) (rows : List Ref) (key : Cell) : List Ref :=
  rows.filter fun r => decide ((h r).groupingKey = key)

/-- The groups, in order. -/
def groups (h : RowHeap Ref Fields) (rows : List Ref) : List (List Ref) :=
  (groupingKeys h rows).map (sharing h rows)

variable {h : RowHeap Ref Fields} {rows : List Ref}

theorem mem_sharing {key : Cell} {r : Ref} :
    r ∈ sharing h rows key ↔ r ∈ rows ∧ (h r).groupingKey = key := by
  simp [sharing]

theorem mem_groupingKeys {key : Cell} :
    key ∈ groupingKeys h rows ↔ ∃ r ∈ rows, (h r).groupingKey = key := by
  rw [groupingKeys, List.mem_eraseDups, List.mem_map]

theorem nodup_groupingKeys (h : RowHeap Ref Fields) (rows : List Ref) :
    (groupingKeys h rows).Nodup :=
  OrderedMap.nodup_keys_collect _ rows

/-- A group has a first row. -/
theorem exists_first {key : Cell} (hkey : key ∈ groupingKeys h rows) :
    ∃ first rest, sharing h rows key = first :: rest := by
  obtain ⟨r, hr, hshares⟩ := mem_groupingKeys.mp hkey
  exact List.exists_cons_of_ne_nil (List.ne_nil_of_mem (mem_sharing.mpr ⟨hr, hshares⟩))

theorem nodup_of_mem_groups (hrows : rows.Nodup) : ∀ g ∈ groups h rows, g.Nodup := by
  intro g hg
  obtain ⟨key, -, rfl⟩ := List.mem_map.mp hg
  exact hrows.filter _

theorem disjoint_groups : (groups h rows).Pairwise List.Disjoint := by
  apply List.pairwise_map.mpr
  apply (nodup_groupingKeys h rows).imp
  intro key key' hne r hr hr'
  exact hne ((mem_sharing.mp hr).2.symm.trans (mem_sharing.mp hr').2)

/-- Each row is in one group. -/
theorem flatten_groups : (groups h rows).flatten.Perm rows := by
  rw [groups, ← List.flatMap_def]
  apply Keyed.flatMap_filter_perm_of_mem (nodup_groupingKeys h rows)
  intro r hr
  exact mem_groupingKeys.mpr ⟨r, hr, rfl⟩

/-- The rows of a group, read off from one of its members. -/
theorem sharing_of_mem_group {i : Nat} {g : List Ref} (hg : (groups h rows)[i]? = some g) {r : Ref}
    (hr : r ∈ g) : r ∈ rows ∧ sharing h rows (h r).groupingKey = g := by
  obtain ⟨key, -, rfl⟩ := List.mem_map.mp (List.mem_of_getElem? hg)
  obtain ⟨hmem, rfl⟩ := mem_sharing.mp hr
  exact ⟨hmem, rfl⟩

/-! ## The loop -/

/-- What is shown, by reference. -/
structure Shown (Ref : Type) where
  collapsedRows : List Ref
  expandedRows : OrderedMap Nat (List Ref)

/-- Write that a row object cannot be expanded. -/
def setNotExpandable [DecidableEq Ref] (h : RowHeap Ref Fields) (r : Ref) : RowHeap Ref Fields :=
  { h with objects := Function.update h.objects r { h.objects r with expandState := some .none } }

theorem row_setNotExpandable [DecidableEq Ref] (h : RowHeap Ref Fields) (r r' : Ref) :
    h.setNotExpandable r r' = if r' = r then { h r with expandState := some .none } else h r' := by
  by_cases hsame : r' = r
  · subst hsame
    simp [row, setNotExpandable]
  · simp [row, setNotExpandable, hsame]

variable [DecidableEq Fields]

/-- Write an empty text in the first place of the array that a row object refers to. -/
def clearGroupingKey (h : RowHeap Ref Fields) (r : Ref) : RowHeap Ref Fields :=
  let fields := (h.objects r).otherFields
  { h with arrays := Function.update h.arrays fields (.text "" :: (h.arrays fields).tail) }

/-- The arrays that the row objects refer to stay the same. -/
theorem objects_foldl_clear (rows : List Ref) (h : RowHeap Ref Fields) :
    (rows.foldl clearGroupingKey h).objects = h.objects := by
  induction rows generalizing h with
  | nil => rfl
  | cons r rows ih => exact ih _

variable [DecidableEq Ref]

/-- Change the rows of one group, of which there is at least one. -/
def showGroup (h : RowHeap Ref Fields) (rowsInGroup : List Ref) : RowHeap Ref Fields :=
  let h :=
    match rowsInGroup with
    | [only] => h.setNotExpandable only
    | _ => h
  (rowsInGroup.drop 1).foldl clearGroupingKey h

/-- Group rows by their first field, and change them as they are to be shown. -/
def groupRows (h : RowHeap Ref Fields) (rows : List Ref) : Shown Ref × RowHeap Ref Fields :=
  (flattenedRows h rows).entries.zipIdx.foldl
    (fun state entry =>
      let rowsInGroup := entry.1.2
      let shown : Shown Ref :=
        { collapsedRows := state.1.collapsedRows ++ rowsInGroup.take 1
          expandedRows := state.1.expandedRows.set entry.2 (rowsInGroup.drop 1) }
      (shown, state.2.showGroup rowsInGroup))
    (⟨[], .empty⟩, h)

/-- The loop over the groups shows them one after another. -/
theorem groupRows_eq (h : RowHeap Ref Fields) (rows : List Ref) :
    (h.groupRows rows).1.collapsedRows = (groups h rows).flatMap (List.take 1) ∧
      (h.groupRows rows).1.expandedRows.entries =
        (groups h rows).zipIdx.map (fun x => (x.2, x.1.drop 1)) ∧
      (h.groupRows rows).2 = (groups h rows).foldl showGroup h := by
  have hloop : ∀ (entries : List (Cell × List Ref)) (n : Nat) (shown : Shown Ref)
      (h : RowHeap Ref Fields),
      (entries.zipIdx n).foldl
        (fun state entry =>
          let rowsInGroup := entry.1.2
          let shown : Shown Ref :=
            { collapsedRows := state.1.collapsedRows ++ rowsInGroup.take 1
              expandedRows := state.1.expandedRows.set entry.2 (rowsInGroup.drop 1) }
          (shown, state.2.showGroup rowsInGroup))
        (shown, h) =
      (⟨shown.collapsedRows ++ (entries.map Prod.snd).flatMap (List.take 1),
        ((entries.map Prod.snd).zipIdx n).foldl (fun m x => m.set x.2 (x.1.drop 1))
          shown.expandedRows⟩,
        (entries.map Prod.snd).foldl showGroup h) := by
    intro entries
    induction entries with
    | nil => simp
    | cons entry entries ih =>
        intro n shown h
        rw [List.zipIdx_cons, List.foldl_cons, ih]
        simp
  have hgroups : (flattenedRows h rows).entries.map Prod.snd = groups h rows := by
    rw [flattenedRows, OrderedMap.entries_collect, List.map_map]
    rfl
  rw [groupRows, hloop, hgroups]
  refine ⟨rfl, ?_, rfl⟩
  exact OrderedMap.entries_foldl_set (List.drop 1) _ 0 .empty fun i hi =>
    absurd hi List.not_mem_nil

/-! ## The objects -/

/-- A row of a group as it is shown. -/
def shownAs (rowsInGroup : List Ref) (r : Ref) (row : Row) : Row :=
  if rowsInGroup = [r] then { row with expandState := some .none }
  else if r ∈ rowsInGroup.tail then row.hideGroupingKey
  else row

/-- Clearing the array of one row changes no other row, as no other has this array. -/
theorem row_clearGroupingKey {h : RowHeap Ref Fields} (hown : h.Unshared) (r r' : Ref) :
    h.clearGroupingKey r r' = if r' = r then (h r).hideGroupingKey else h r' := by
  by_cases hsame : r' = r
  · subst hsame
    simp [row, clearGroupingKey, Row.hideGroupingKey]
  · have hother : (h.objects r').otherFields ≠ (h.objects r).otherFields :=
      fun heq => hsame (hown heq)
    simp [row, clearGroupingKey, hsame, hother]

theorem otherFields_showGroup (h : RowHeap Ref Fields) (rowsInGroup : List Ref) (r : Ref) :
    ((h.showGroup rowsInGroup).objects r).otherFields = (h.objects r).otherFields := by
  rcases rowsInGroup with _ | ⟨only, _ | ⟨second, rest⟩⟩
  · rfl
  · by_cases hsame : r = only
    · subst hsame
      simp [showGroup, setNotExpandable]
    · simp [showGroup, setNotExpandable, hsame]
  · show (((second :: rest).foldl clearGroupingKey h).objects r).otherFields = _
    rw [objects_foldl_clear]

theorem otherFields_foldl_showGroup (groups : List (List Ref)) (h : RowHeap Ref Fields) (r : Ref) :
    ((groups.foldl showGroup h).objects r).otherFields = (h.objects r).otherFields := by
  induction groups generalizing h with
  | nil => rfl
  | cons g groups ih => exact (ih (h.showGroup g)).trans (otherFields_showGroup h g r)

theorem Unshared.showGroup {h : RowHeap Ref Fields} (hown : h.Unshared) (rowsInGroup : List Ref) :
    (h.showGroup rowsInGroup).Unshared := by
  intro r r' heq
  simp only [otherFields_showGroup] at heq
  exact hown heq

theorem foldl_clear {rows : List Ref} (hnodup : rows.Nodup) {h : RowHeap Ref Fields}
    (hown : h.Unshared) (r : Ref) :
    rows.foldl clearGroupingKey h r = if r ∈ rows then (h r).hideGroupingKey else h r := by
  induction rows generalizing h with
  | nil => rfl
  | cons x rows ih =>
      obtain ⟨hx, hrows⟩ := List.nodup_cons.mp hnodup
      have hown' : (h.clearGroupingKey x).Unshared := hown
      rw [List.foldl_cons, ih hrows hown', row_clearGroupingKey hown]
      by_cases hr : r = x
      · subst hr
        simp [hx]
      · simp [hr]

/-- Showing a group changes each of its rows once, and no other row. -/
theorem showGroup_apply {rowsInGroup : List Ref} (hnodup : rowsInGroup.Nodup)
    {h : RowHeap Ref Fields} (hown : h.Unshared) (r : Ref) :
    h.showGroup rowsInGroup r = shownAs rowsInGroup r (h r) := by
  cases rowsInGroup with
  | nil => rfl
  | cons first rest =>
      cases rest with
      | nil =>
          show h.setNotExpandable first r = _
          rw [row_setNotExpandable]
          by_cases hr : r = first
          · subst hr
            simp [shownAs]
          · simp [shownAs, hr, Ne.symm hr]
      | cons second rest =>
          have hrest : (second :: rest).Nodup := (List.nodup_cons.mp hnodup).2
          have hone : first :: second :: rest ≠ [r] := by simp
          rw [shownAs, if_neg hone]
          exact foldl_clear hrest hown r

theorem shownAs_of_notMem {rowsInGroup : List Ref} {r : Ref} (hr : r ∉ rowsInGroup) (row : Row) :
    shownAs rowsInGroup r row = row := by
  have hone : rowsInGroup ≠ [r] := fun heq => hr (heq ▸ List.mem_singleton_self r)
  rw [shownAs, if_neg hone, if_neg fun htail => hr (List.mem_of_mem_tail htail)]

/-- Rows outside of the groups stay as they are. -/
theorem foldl_showGroup_of_notMem {groups : List (List Ref)} (hnodup : ∀ g ∈ groups, g.Nodup)
    {h : RowHeap Ref Fields} (hown : h.Unshared) {r : Ref} (hr : ∀ g ∈ groups, r ∉ g) :
    groups.foldl showGroup h r = h r := by
  induction groups generalizing h with
  | nil => rfl
  | cons g groups ih =>
      rw [List.foldl_cons, ih (fun g' hg' => hnodup g' (List.mem_cons_of_mem g hg'))
        (hown.showGroup g) fun g' hg' => hr g' (List.mem_cons_of_mem g hg')]
      rw [showGroup_apply (hnodup g List.mem_cons_self) hown,
        shownAs_of_notMem (hr g List.mem_cons_self)]

/-- Each row is changed in its own group only. -/
theorem foldl_showGroup_of_mem {groups : List (List Ref)} (hnodup : ∀ g ∈ groups, g.Nodup)
    (hdisjoint : groups.Pairwise List.Disjoint) {h : RowHeap Ref Fields} (hown : h.Unshared)
    {g : List Ref} (hg : g ∈ groups) {r : Ref} (hr : r ∈ g) :
    groups.foldl showGroup h r = shownAs g r (h r) := by
  induction groups generalizing h with
  | nil => exact absurd hg List.not_mem_nil
  | cons first groups ih =>
      obtain ⟨hfirst, hothers⟩ := List.pairwise_cons.mp hdisjoint
      have hnodup' : ∀ g' ∈ groups, g'.Nodup := fun g' hg' =>
        hnodup g' (List.mem_cons_of_mem first hg')
      have hshow := showGroup_apply (hnodup first List.mem_cons_self) hown
      rw [List.foldl_cons]
      cases List.mem_cons.mp hg with
      | inl heq =>
          subst heq
          rw [foldl_showGroup_of_notMem hnodup' (hown.showGroup g) fun g' hg' hr' =>
            hfirst g' hg' hr hr', hshow]
      | inr hlater =>
          rw [ih hnodup' hothers (hown.showGroup first) hlater, hshow,
            shownAs_of_notMem fun hr' => hfirst g hlater hr' hr]

/-! ## What is shown -/

/-- The rows are shown in groups, and each row as its place in its group requires. -/
structure Grouped (h : RowHeap Ref Fields) (rows : List Ref) (shown : Shown Ref)
    (h' : RowHeap Ref Fields) : Prop where
  /-- There is a collapsed row for each value of the first field. -/
  length : shown.collapsedRows.length = (groupingKeys h rows).length
  /-- It is the first of the rows with this value, and the others are those below it. -/
  group : ∀ (i : Nat) (key : Cell), (groupingKeys h rows)[i]? = some key →
    ∃ first rest, shown.collapsedRows[i]? = some first ∧
      shown.expandedRows.get i = some rest ∧ first :: rest = sharing h rows key
  /-- There are rows below each collapsed row, and below nothing else. -/
  indices : shown.expandedRows.entries.map Prod.fst = List.range shown.collapsedRows.length
  /-- Every row is shown once. -/
  once : (shown.collapsedRows ++ shown.expandedRows.entries.flatMap Prod.snd).Perm rows
  /-- Rows keep their ids and their fields but the first. -/
  kept : ∀ r, (h' r).id = (h r).id ∧ (h' r).otherFields.tail = (h r).otherFields.tail
  /-- Collapsed rows keep the first field as well. -/
  collapsed : ∀ r ∈ shown.collapsedRows, (h' r).otherFields = (h r).otherFields
  /-- The first field of the other rows is cleared. -/
  expanded : ∀ (i : Nat) (rest : List Ref), shown.expandedRows.get i = some rest →
    ∀ r ∈ rest, (h' r).otherFields = .text "" :: (h r).otherFields.tail
  /-- A row that is alone in its group cannot be expanded. -/
  alone : ∀ r ∈ rows, sharing h rows (h r).groupingKey = [r] →
    (h' r).expandState = some .none
  /-- Other rows can be expanded as before. -/
  expandState : ∀ r, (r ∈ rows → sharing h rows (h r).groupingKey ≠ [r]) →
    (h' r).expandState = (h r).expandState
  /-- No other object is changed. -/
  others : ∀ r ∉ rows, h' r = h r
  /-- Every object refers to the array that it has referred to. -/
  arrays : ∀ r, (h'.objects r).otherFields = (h.objects r).otherFields

/-- The final object of a row of the list. -/
theorem groupRows_apply (hown : h.Unshared) (hrows : rows.Nodup) {r : Ref} (hr : r ∈ rows) :
    (h.groupRows rows).2 r = shownAs (sharing h rows (h r).groupingKey) r (h r) := by
  rw [(groupRows_eq h rows).2.2]
  apply foldl_showGroup_of_mem (nodup_of_mem_groups hrows) disjoint_groups hown
  · exact List.mem_map_of_mem (mem_groupingKeys.mpr ⟨r, hr, rfl⟩)
  · exact mem_sharing.mpr ⟨hr, rfl⟩

theorem groupRows_apply_of_notMem (hown : h.Unshared) (hrows : rows.Nodup) {r : Ref}
    (hr : r ∉ rows) :
    (h.groupRows rows).2 r = h r := by
  rw [(groupRows_eq h rows).2.2]
  apply foldl_showGroup_of_notMem (nodup_of_mem_groups hrows) hown
  intro g hg hrg
  obtain ⟨key, -, rfl⟩ := List.mem_map.mp hg
  exact hr (mem_sharing.mp hrg).1

/-- The collapsed rows are the first rows of the groups. -/
theorem collapsedRows_eq (h : RowHeap Ref Fields) (rows : List Ref) :
    (h.groupRows rows).1.collapsedRows.map some = (groups h rows).map List.head? := by
  have hfirst : ∀ gs : List (List Ref), (∀ g ∈ gs, ∃ first rest, g = first :: rest) →
      (gs.flatMap (List.take 1)).map some = gs.map List.head? := by
    intro gs hgs
    induction gs with
    | nil => rfl
    | cons g gs ih =>
        obtain ⟨first, rest, rfl⟩ := hgs g List.mem_cons_self
        rw [List.flatMap_cons, List.map_append, ih fun g' hg' =>
          hgs g' (List.mem_cons_of_mem _ hg')]
        rfl
  rw [(groupRows_eq h rows).1]
  apply hfirst
  intro g hg
  obtain ⟨key, hkey, rfl⟩ := List.mem_map.mp hg
  exact exists_first hkey

theorem getElem?_collapsedRows {i : Nat} {first : Ref} :
    (h.groupRows rows).1.collapsedRows[i]? = some first ↔
      ∃ rest, (groups h rows)[i]? = some (first :: rest) := by
  have hfirsts := congrArg (fun l => l[i]?) (collapsedRows_eq h rows)
  simp only [List.getElem?_map] at hfirsts
  apply Iff.intro
  · intro hcollapsed
    rw [hcollapsed] at hfirsts
    obtain ⟨g, hg, hhead⟩ := Option.map_eq_some_iff.mp hfirsts.symm
    obtain ⟨rest, rfl⟩ := List.head?_eq_some_iff.mp hhead
    exact ⟨rest, hg⟩
  · intro hgroup
    obtain ⟨rest, hg⟩ := hgroup
    rw [hg] at hfirsts
    obtain ⟨first', hfirst, heq⟩ := Option.map_eq_some_iff.mp hfirsts
    rw [hfirst]
    exact heq

/-- Below a collapsed row are the other rows of its group. -/
theorem get_expandedRows {i : Nat} {rest : List Ref} :
    (h.groupRows rows).1.expandedRows.get i = some rest ↔
      ∃ g, (groups h rows)[i]? = some g ∧ g.drop 1 = rest := by
  rw [OrderedMap.get_eq_some_iff, (groupRows_eq h rows).2.1, List.mem_map]
  apply Iff.intro
  · intro hmem
    obtain ⟨⟨g, j⟩, hg, heq⟩ := hmem
    obtain ⟨rfl, rfl⟩ := Prod.mk.inj heq
    exact ⟨g, List.mem_zipIdx_iff_getElem?.mp hg, rfl⟩
  · intro hgroup
    obtain ⟨g, hg, rfl⟩ := hgroup
    exact ⟨(g, i), List.mem_zipIdx_iff_getElem?.mpr hg, rfl⟩

/-- A row keeps its id and its fields but the first, wherever it is shown. -/
theorem shownAs_kept (g : List Ref) (r : Ref) (row : Row) :
    (shownAs g r row).id = row.id ∧ (shownAs g r row).otherFields.tail = row.otherFields.tail := by
  unfold shownAs
  split
  · exact ⟨rfl, rfl⟩
  · split
    · exact ⟨rfl, rfl⟩
    · exact ⟨rfl, rfl⟩

/-- The first row of a group keeps all of its fields. -/
theorem shownAs_first {first : Ref} {rest : List Ref} (hnodup : (first :: rest).Nodup) (row : Row) :
    (shownAs (first :: rest) first row).otherFields = row.otherFields := by
  have hfirst : first ∉ rest := (List.nodup_cons.mp hnodup).1
  unfold shownAs
  split
  · rfl
  · rw [List.tail_cons, if_neg hfirst]

/-- The other rows lose their first field. -/
theorem shownAs_rest {first r : Ref} {rest : List Ref} (hr : r ∈ rest) (row : Row) :
    shownAs (first :: rest) r row = row.hideGroupingKey := by
  have hmore : first :: rest ≠ [r] := by
    intro heq
    rw [(List.cons.inj heq).2] at hr
    exact absurd hr List.not_mem_nil
  rw [shownAs, if_neg hmore, List.tail_cons, if_pos hr]

/-- Only a row on its own is marked. -/
theorem shownAs_expandState {g : List Ref} {r : Ref} (hmore : g ≠ [r]) (row : Row) :
    (shownAs g r row).expandState = row.expandState := by
  rw [shownAs, if_neg hmore]
  split
  · rfl
  · rfl

theorem length_collapsedRows (h : RowHeap Ref Fields) (rows : List Ref) :
    (h.groupRows rows).1.collapsedRows.length = (groups h rows).length := by
  have hmap := congrArg List.length (collapsedRows_eq h rows)
  rwa [List.length_map, List.length_map] at hmap

theorem indices_expandedRows (h : RowHeap Ref Fields) (rows : List Ref) :
    (h.groupRows rows).1.expandedRows.entries.map Prod.fst =
      List.range (h.groupRows rows).1.collapsedRows.length := by
  rw [(groupRows_eq h rows).2.1, length_collapsedRows, List.map_map]
  exact (List.zipIdx_map_snd 0 _).trans List.range_eq_range'.symm

/-- The rows that are shown are those of the list. -/
theorem shown_perm (h : RowHeap Ref Fields) (rows : List Ref) :
    ((h.groupRows rows).1.collapsedRows ++
      (h.groupRows rows).1.expandedRows.entries.flatMap Prod.snd).Perm rows := by
  have hrest : ((groups h rows).zipIdx.map fun x => (x.2, x.1.drop 1)).flatMap Prod.snd =
      (groups h rows).flatMap (List.drop 1) := by
    rw [List.flatMap_map, ← List.flatMap_map (f := Prod.fst), List.zipIdx_map_fst]
  rw [(groupRows_eq h rows).1, (groupRows_eq h rows).2.1, hrest]
  apply (List.flatMap_append_perm _ _ _).trans
  simp only [List.take_append_drop, List.flatMap_id']
  exact flatten_groups

/-- A collapsed row keeps its fields. -/
theorem otherFields_of_collapsed (hown : h.Unshared) (hrows : rows.Nodup) {r : Ref}
    (hr : r ∈ (h.groupRows rows).1.collapsedRows) :
    ((h.groupRows rows).2 r).otherFields = (h r).otherFields := by
  obtain ⟨i, hi⟩ := List.mem_iff_getElem?.mp hr
  obtain ⟨rest, hg⟩ := getElem?_collapsedRows.mp hi
  obtain ⟨hmem, hgroup⟩ := sharing_of_mem_group hg List.mem_cons_self
  rw [groupRows_apply hown hrows hmem, hgroup]
  exact shownAs_first (nodup_of_mem_groups hrows _ (List.mem_of_getElem? hg)) (h r)

/-- A row below a collapsed one has its first field cleared. -/
theorem otherFields_of_expanded (hown : h.Unshared) (hrows : rows.Nodup) {i : Nat} {rest : List Ref}
    (hrest : (h.groupRows rows).1.expandedRows.get i = some rest) {r : Ref} (hr : r ∈ rest) :
    ((h.groupRows rows).2 r).otherFields = .text "" :: (h r).otherFields.tail := by
  obtain ⟨g, hg, rfl⟩ := get_expandedRows.mp hrest
  cases g with
  | nil => exact absurd hr List.not_mem_nil
  | cons first rest =>
      have hbelow : r ∈ rest := hr
      obtain ⟨hmem, hgroup⟩ := sharing_of_mem_group hg (List.mem_cons_of_mem first hbelow)
      rw [groupRows_apply hown hrows hmem, hgroup, shownAs_rest hbelow]
      rfl

/-- **Grouping in place.** Whatever row objects the list refers to, different ones with
arrays of their own, they are shown in groups. -/
theorem groupRows_grouped {h : RowHeap Ref Fields} (hown : h.Unshared) {rows : List Ref}
    (hrows : rows.Nodup) :
    Grouped h rows (h.groupRows rows).1 (h.groupRows rows).2 where
  length := (length_collapsedRows h rows).trans (List.length_map _)
  group i key hkey := by
    obtain ⟨first, rest, hgroup⟩ := exists_first (List.mem_of_getElem? hkey)
    have hi : (groups h rows)[i]? = some (first :: rest) := by
      rw [groups, List.getElem?_map, hkey, ← hgroup]
      rfl
    exact ⟨first, rest, getElem?_collapsedRows.mpr ⟨rest, hi⟩,
      get_expandedRows.mpr ⟨first :: rest, hi, rfl⟩, hgroup.symm⟩
  indices := indices_expandedRows h rows
  once := shown_perm h rows
  kept r := by
    by_cases hr : r ∈ rows
    · rw [groupRows_apply hown hrows hr]
      exact shownAs_kept _ r (h r)
    · rw [groupRows_apply_of_notMem hown hrows hr]
      exact ⟨rfl, rfl⟩
  collapsed _ hr := otherFields_of_collapsed hown hrows hr
  expanded _ _ hrest _ hr := otherFields_of_expanded hown hrows hrest hr
  alone r hr halone := by
    rw [groupRows_apply hown hrows hr, halone, shownAs, if_pos rfl]
  expandState r hmore := by
    by_cases hr : r ∈ rows
    · rw [groupRows_apply hown hrows hr, shownAs_expandState (hmore hr)]
    · rw [groupRows_apply_of_notMem hown hrows hr]
  others _ hr := groupRows_apply_of_notMem hown hrows hr
  arrays r := by
    rw [(groupRows_eq h rows).2.2]
    exact otherFields_foldl_showGroup _ h r

/-- Two rows of one pipeline, and one of another, each with its own array. -/
def threeRows : RowHeap Nat Nat where
  objects
    | 0 => ⟨none, "dataset:1", 0⟩
    | 1 => ⟨none, "model:1", 1⟩
    | r => ⟨none, "model:2", r⟩
  arrays
    | 0 => [.text "pipelineName-1", .text "artifactName-1"]
    | 1 => [.text "pipelineName-1", .text "artifactName-2"]
    | _ => [.text "pipelineName-2", .text "artifactName-3"]

theorem unshared_threeRows : threeRows.Unshared := by
  have hself : ∀ r, (threeRows.objects r).otherFields = r
    | 0 => rfl
    | 1 => rfl
    | _ + 2 => rfl
  intro r r' heq
  exact (hself r).symm.trans (heq.trans (hself r'))

theorem groupRows_grouped_threeRows :
    (threeRows.groupRows [0, 1, 2]).1.collapsedRows = [0, 2] ∧
      Grouped threeRows [0, 1, 2] (threeRows.groupRows [0, 1, 2]).1
        (threeRows.groupRows [0, 1, 2]).2 :=
  ⟨by decide, groupRows_grouped unshared_threeRows (by decide)⟩

end RowHeap

/-! ## Rows as values -/

/-- The rows of a group, in order. -/
def RowGroup.toList (g : RowGroup) : List Row := g.first :: g.rest

/-- Grouping collects the rows by their first field. -/
theorem entries_flattenedRows (rows : List Row) :
    (flattenedRows rows).entries.map (fun entry => (entry.1, entry.2.toList)) =
      (OrderedMap.collect Row.groupingKey rows).entries := by
  unfold flattenedRows OrderedMap.collect
  apply OrderedMap.entries_foldl_update_map RowGroup.toList Row.groupingKey
  · intro r group
    cases group with
    | none => rfl
    | some g => rfl
  · rfl

/-- The loop over the groups of rows as values. -/
theorem groupRows_eq (rows : List Row) :
    (groupRows rows).collapsedRows =
        (flattenedRows rows).entries.map (fun entry => entry.2.collapsed) ∧
      (groupRows rows).expandedRows.entries = (flattenedRows rows).entries.zipIdx.map
        fun x => (x.2, x.1.2.rest.map Row.hideGroupingKey) := by
  have hloop : ∀ (entries : List (Cell × RowGroup)) (n : Nat) (shown : CollapsedAndExpandedRows),
      (entries.zipIdx n).foldl
        (fun shown x =>
          { collapsedRows := shown.collapsedRows ++ [x.1.2.collapsed]
            expandedRows :=
              shown.expandedRows.set x.2 (x.1.2.rest.map Row.hideGroupingKey) })
        shown =
      ⟨shown.collapsedRows ++ entries.map (fun entry => entry.2.collapsed),
        (entries.zipIdx n).foldl
          (fun m x => m.set x.2 (x.1.2.rest.map Row.hideGroupingKey)) shown.expandedRows⟩ := by
    intro entries
    induction entries with
    | nil => simp
    | cons entry entries ih =>
        intro n shown
        rw [List.zipIdx_cons, List.foldl_cons, ih]
        simp
  rw [groupRows, hloop]
  apply And.intro rfl
  exact OrderedMap.entries_foldl_set
    (fun entry : Cell × RowGroup => entry.2.rest.map Row.hideGroupingKey) _ 0 .empty
    fun i hi => absurd hi List.not_mem_nil

/-- The row that is shown for the rows of a group. -/
def shownFirst : List Row → List Row
  | [] => []
  | [r] => [{ r with expandState := some .none }]
  | r :: _ :: _ => [r]

theorem shownFirst_toList (g : RowGroup) : shownFirst g.toList = [g.collapsed] := by
  obtain ⟨first, rest⟩ := g
  cases rest with
  | nil => rfl
  | cons second rest => rfl

namespace RowHeap

variable {Ref Fields : Type}

/-- The groups of the rows as values are those of the references. -/
theorem toList_flattenedRows (h : RowHeap Ref Fields) (rows : List Ref) :
    (Frontend.flattenedRows (rows.map h)).entries.map (fun entry => entry.2.toList) =
      (groups h rows).map (List.map h) := by
  have hentries := congrArg (List.map Prod.snd) (entries_flattenedRows (rows.map h))
  rw [List.map_map, OrderedMap.entries_collect, List.map_map, List.map_map] at hentries
  apply hentries.trans
  rw [groups, List.map_map]
  apply List.map_congr_left
  intro key _
  show (rows.map h).filter _ = (sharing h rows key).map h
  rw [List.filter_map]
  rfl

variable [DecidableEq Ref] {h : RowHeap Ref Fields} {rows : List Ref}

/-- The first row of a group is shown as in the group of values. -/
theorem shownFirst_map {g : List Ref} (hnodup : g.Nodup) {h' : RowHeap Ref Fields}
    (hshown : ∀ r ∈ g, h' r = shownAs g r (h r)) : shownFirst (g.map h) = (g.take 1).map h' := by
  cases g with
  | nil => rfl
  | cons first rest =>
      have hfirst := hshown first List.mem_cons_self
      cases rest with
      | nil =>
          rw [shownAs, if_pos rfl] at hfirst
          show [_] = [h' first]
          rw [hfirst]
      | cons second rest =>
          have hmore : first :: second :: rest ≠ [first] := by simp
          rw [shownAs, if_neg hmore, List.tail_cons, if_neg (List.nodup_cons.mp hnodup).1] at hfirst
          show [h first] = [h' first]
          rw [hfirst]

/-- And so are the others. -/
theorem hide_map {g : List Ref} {h' : RowHeap Ref Fields}
    (hshown : ∀ r ∈ g, h' r = shownAs g r (h r)) :
    ((g.map h).drop 1).map Row.hideGroupingKey = (g.drop 1).map h' := by
  cases g with
  | nil => rfl
  | cons first rest =>
      show (rest.map h).map Row.hideGroupingKey = rest.map h'
      rw [List.map_map]
      apply List.map_congr_left
      intro r hr
      exact ((hshown r (List.mem_cons_of_mem first hr)).trans (shownAs_rest hr (h r))).symm

variable [DecidableEq Fields]

/-- **Grouping in place is grouping.** What the references of different rows, with
arrays of their own, show in the end is what grouping the rows as values gives. -/
theorem groupRows_refines (hown : h.Unshared) (hrows : rows.Nodup) :
    (Frontend.groupRows (rows.map h)).collapsedRows =
        (h.groupRows rows).1.collapsedRows.map (h.groupRows rows).2 ∧
      (Frontend.groupRows (rows.map h)).expandedRows.entries =
        (h.groupRows rows).1.expandedRows.entries.map fun entry =>
          (entry.1, entry.2.map (h.groupRows rows).2) := by
  have hshown : ∀ g ∈ groups h rows, ∀ r ∈ g, (h.groupRows rows).2 r = shownAs g r (h r) := by
    intro g hg r hr
    obtain ⟨i, hi⟩ := List.mem_iff_getElem?.mp hg
    obtain ⟨hmem, hshares⟩ := sharing_of_mem_group hi hr
    rw [groupRows_apply hown hrows hmem, hshares]
  have hvalues := toList_flattenedRows h rows
  apply And.intro
  · have hfirsts : (Frontend.groupRows (rows.map h)).collapsedRows =
        ((Frontend.flattenedRows (rows.map h)).entries.map fun entry => entry.2.toList).flatMap
          shownFirst := by
      rw [(Frontend.groupRows_eq _).1, List.flatMap_map, List.map_eq_flatMap]
      simp only [shownFirst_toList]
    rw [hfirsts, hvalues, (groupRows_eq h rows).1, List.flatMap_map, List.map_flatMap]
    apply List.flatMap_congr
    exact fun g hg => shownFirst_map (nodup_of_mem_groups hrows g hg) (hshown g hg)
  · have hrests : (Frontend.groupRows (rows.map h)).expandedRows.entries =
        ((Frontend.flattenedRows (rows.map h)).entries.map fun entry => entry.2.toList).zipIdx.map
          fun x => (x.2, (x.1.drop 1).map Row.hideGroupingKey) := by
      rw [(Frontend.groupRows_eq _).2, List.zipIdx_map, List.map_map]
      rfl
    rw [hrests, hvalues, (groupRows_eq h rows).2.1, List.zipIdx_map, List.map_map, List.map_map]
    apply List.map_congr_left
    intro x hx
    have hmem : x.1 ∈ groups h rows := List.mem_of_getElem? (List.mem_zipIdx_iff_getElem?.mp hx)
    exact congrArg (Prod.mk x.2) (hide_map (hshown x.1 hmem))

end RowHeap

end KfMetadata.Frontend
