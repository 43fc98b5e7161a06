/-
# The records of an event list

A list of events is answered together with the records at the ends of the events.
The records are looked up id by id; an id whose record was found is skipped when it
occurs again, and the first lookup that does not find exactly one record ends the
request. So the loop succeeds if and only if every id has exactly one record, its
result has the ids of the events for its keys and their records for its values, and
no id is looked up twice, whatever the order and the repetitions of the events.
-/

import KfMetadata.Library.CallLog
import KfMetadata.Mlmd.InMemory
import KfMetadata.Service.Lookup

namespace KfMetadata.Service

open Mlmd Remote Remote.Program

variable {σ : Type} {E : Effect api σ} {s t : σ} {r : Resource}

/-- The answers to the lookups of single ids. -/
abbrev Lookups : Type := (r : Resource) → Int → Except String (List (Item r.kind))

/-- The store answers lookups of single ids in this way and stays as it is; the
records found under an id have the id. -/
structure LooksUp (E : Effect api σ) (s : σ) (look : Lookups) : Prop where
  answers : ∀ (r : Resource) (id : Int) (reply : Except String (List (Item r.kind))) (t : σ),
    E (.getItemsByID r.kind [id]) s reply t → t = s ∧ reply = look r id
  records : ∀ (r : Resource) (id : Int) (items : List (Item r.kind)),
    look r id = .ok items → ∀ x ∈ items, x.id = some id

/-- What is to be said of the lookup of some ids, given the records found before. -/
structure Joins (look : Lookups) (r : Resource) (ids : List Int)
    (found : Finmap fun _ : Int => Item r.kind) (log : List (Exchange api))
    (result : Except GoError (Finmap fun _ : Int => Item r.kind)) : Prop where
  /-- It succeeds if every id has exactly one record, and only then. -/
  succeeds : (∃ m, result = .ok m) ↔ ∀ id ∈ ids, id ∈ found ∨ ∃ x, look r id = .ok [x]
  /-- The value under an id is its record. -/
  values : ∀ m, result = .ok m → ∀ id x, m.lookup id = some x →
    found.lookup id = some x ∨ look r id = .ok [x]
  /-- Only ids that were not found yet are looked up. -/
  lookups : ∀ y ∈ log, ∃ id ∈ ids, id ∉ found ∧ y.op = .getItemsByID r.kind [id]
  /-- No id is looked up twice. -/
  once : (log.map Exchange.op).Nodup

/-! ## One lookup -/

/-- The lookup of a single record, and what follows it. -/
theorem LooksUp.runs_single {look : Lookups} (hlook : LooksUp E s look) {notSingle : String}
    {id : Int} {α : Type} {f : Item r.kind → Handler α} {log : List (Exchange api)}
    {result : Except GoError α} {u : σ × List (Exchange api)}
    (hrun : (storeCall (.getItemsByID r.kind [id]) >>= fun items =>
      onlyItem r notSingle items >>= f).run.Runs E.logged (s, log) result u) :
    (u = (s, log ++ [⟨.getItemsByID r.kind [id], look r id⟩]) ∧ (∃ e, result = .error e) ∧
      ∀ x, look r id ≠ .ok [x]) ∨
    ∃ x, look r id = .ok [x] ∧ (f x).run.Runs E.logged
      (s, log ++ [⟨.getItemsByID r.kind [id], look r id⟩]) result u := by
  have hcalled : ∀ reply v, E.logged (.getItemsByID r.kind [id]) (s, log) reply v →
      v = (s, log ++ [⟨.getItemsByID r.kind [id], look r id⟩]) ∧ reply = look r id := by
    intro reply v hcall
    obtain ⟨hstate, hreply⟩ := hlook.answers r id reply v.1 hcall.1
    exact ⟨Prod.ext hstate (hreply ▸ hcall.2), hreply⟩
  rcases runs_run_bind.mp hrun with ⟨e, rfl, hcall⟩ | ⟨items, v, hcall, hrest⟩
  · obtain ⟨message, -, hcall⟩ := (runs_callOr_error (.getItemsByID r.kind [id])).mp hcall
    obtain ⟨hstate, hreply⟩ := hcalled _ _ hcall
    exact Or.inl ⟨hstate, ⟨e, rfl⟩, fun x hx => by rw [← hreply] at hx; cases hx⟩
  · rw [storeCall, runs_callOr_ok (.getItemsByID r.kind [id])] at hcall
    obtain ⟨rfl, hreply⟩ := hcalled _ _ hcall
    unfold onlyItem at hrest
    split at hrest
    next x => exact Or.inr ⟨x, hreply.symm, hrest⟩
    next hnot =>
      rcases runs_run_bind.mp hrest with ⟨e, rfl, hthrow⟩ | ⟨x, w, hthrow, -⟩
      · obtain ⟨-, rfl⟩ := runs_run_throw.mp hthrow
        apply Or.inl
        refine ⟨rfl, ⟨e, rfl⟩, fun x hx => ?_⟩
        rw [← hreply] at hx
        exact hnot x (Except.ok.inj hx)
      · cases (runs_run_throw.mp hthrow).1

/-! ## The loop -/

theorem Joins.nil {look : Lookups} (found : Finmap fun _ : Int => Item r.kind) :
    Joins look r [] found [] (.ok found) where
  succeeds := by simp
  values m hm id x hx := by
    obtain rfl := Except.ok.inj hm
    exact Or.inl hx
  lookups := by simp
  once := List.nodup_nil

variable {look : Lookups} {ids : List Int} {id : Int}
  {found : Finmap fun _ : Int => Item r.kind} {log : List (Exchange api)}
  {result : Except GoError (Finmap fun _ : Int => Item r.kind)}

/-- An id whose record was found before is passed over. -/
theorem Joins.skip (hjoins : Joins look r ids found log result) (hfound : id ∈ found) :
    Joins look r (id :: ids) found log result where
  succeeds := by
    rw [hjoins.succeeds, List.forall_mem_cons]
    exact ⟨fun h => ⟨Or.inl hfound, h⟩, And.right⟩
  values := hjoins.values
  lookups y hy := by
    obtain ⟨other, hother, hrest⟩ := hjoins.lookups y hy
    exact ⟨other, List.mem_cons_of_mem id hother, hrest⟩
  once := hjoins.once

/-- An id that does not have exactly one record ends the loop. -/
theorem Joins.stop (hid : id ∉ found) (hnot : ∀ x, look r id ≠ .ok [x])
    (herror : ∃ e, result = .error e) :
    Joins look r (id :: ids) found [⟨.getItemsByID r.kind [id], look r id⟩] result := by
  obtain ⟨e, rfl⟩ := herror
  exact
    { succeeds := by
        apply Iff.intro
        · intro hok
          obtain ⟨m, hm⟩ := hok
          cases hm
        · intro hall
          rcases hall id List.mem_cons_self with hmem | ⟨x, hx⟩
          · exact absurd hmem hid
          · exact absurd hx (hnot x)
      values := fun m hm => by cases hm
      lookups := fun y hy => by
        obtain rfl := List.mem_singleton.mp hy
        exact ⟨id, List.mem_cons_self, hid, rfl⟩
      once := List.nodup_singleton _ }

/-- A record that was found is kept under its id. -/
theorem Joins.keep {x : Item r.kind} (hid : id ∉ found) (hx : look r id = .ok [x])
    (hjoins : Joins look r ids (found.insert id x) log result) :
    Joins look r (id :: ids) found (⟨.getItemsByID r.kind [id], look r id⟩ :: log) result where
  succeeds := by
    rw [hjoins.succeeds, List.forall_mem_cons]
    apply Iff.intro
    · intro hall
      apply And.intro (Or.inr ⟨x, hx⟩)
      intro other hother
      rcases hall other hother with hmem | hone
      · rcases Finmap.mem_insert.mp hmem with rfl | hmem
        · exact Or.inr ⟨x, hx⟩
        · exact Or.inl hmem
      · exact Or.inr hone
    · intro hall other hother
      exact (hall.2 other hother).imp_left fun h => Finmap.mem_insert.mpr (Or.inr h)
  values m hm other y hy := by
    rcases hjoins.values m hm other y hy with hold | hone
    · by_cases heq : other = id
      · subst heq
        rw [Finmap.lookup_insert] at hold
        exact Or.inr (hx.trans (by rw [Option.some.inj hold]))
      · rw [Finmap.lookup_insert_of_ne _ heq] at hold
        exact Or.inl hold
    · exact Or.inr hone
  lookups y hy := by
    rcases List.mem_cons.mp hy with rfl | hlater
    · exact ⟨id, List.mem_cons_self, hid, rfl⟩
    · obtain ⟨other, hother, hnew, hop⟩ := hjoins.lookups y hlater
      exact ⟨other, List.mem_cons_of_mem id hother,
        fun hmem => hnew (Finmap.mem_insert.mpr (Or.inr hmem)), hop⟩
  once := by
    rw [List.map_cons, List.nodup_cons]
    apply And.intro _ hjoins.once
    intro hagain
    obtain ⟨y, hy, hop⟩ := List.mem_map.mp hagain
    -- A later lookup of the same id would be of an id that is found by then.
    obtain ⟨other, -, hnew, hother⟩ := hjoins.lookups y hy
    have heq : other = id :=
      List.singleton_inj.mp (Call.getItemsByID.inj (hother.symm.trans hop)).2
    exact hnew (Finmap.mem_insert.mpr (Or.inl heq))

/-- What a run of the loop has looked up, and what it ends in. -/
theorem LooksUp.joins (hlook : LooksUp E s look) {notSingle : String} {idOf : Event → Int}
    {events : List Event} {before : List (Exchange api)} {u : σ × List (Exchange api)}
    (hrun : (getInEvents r notSingle idOf events found).run.Runs E.logged (s, before) result u) :
    ∃ log, u = (s, before ++ log) ∧ Joins look r (events.map idOf) found log result := by
  induction events generalizing found before with
  | nil =>
      obtain ⟨rfl, rfl⟩ := runs_run_pure.mp hrun
      exact ⟨[], by rw [List.append_nil], Joins.nil found⟩
  | cons e events ih =>
      simp only [getInEvents] at hrun
      split at hrun
      next hmem =>
        obtain ⟨log, hu, hjoins⟩ := ih hrun
        exact ⟨log, hu, hjoins.skip hmem⟩
      next hmem =>
        rcases hlook.runs_single hrun with ⟨rfl, herror, hnot⟩ | ⟨x, hx, hrest⟩
        · exact ⟨_, rfl, Joins.stop hmem hnot herror⟩
        · obtain ⟨log, hu, hjoins⟩ := ih hrest
          refine ⟨_ :: log, ?_, Joins.keep hmem hx hjoins⟩
          rw [hu, List.append_assoc]
          rfl

/-- Whatever the store, the keys of a result are the ids that were found before and
those of the events. -/
theorem getInEvents_keys {notSingle : String} {idOf : Event → Int} {events : List Event}
    {m : Finmap fun _ : Int => Item r.kind}
    (hrun : (getInEvents r notSingle idOf events found).run.Runs E s (.ok m) t) (id : Int) :
    id ∈ m ↔ id ∈ found ∨ id ∈ events.map idOf := by
  induction events generalizing found s with
  | nil =>
      obtain ⟨hm, -⟩ := runs_run_pure.mp hrun
      obtain rfl := Except.ok.inj hm
      simp
  | cons e events ih =>
      simp only [getInEvents] at hrun
      split at hrun
      next hmem =>
        rw [ih hrun, List.map_cons, List.mem_cons]
        apply Iff.intro
        · exact fun h => h.imp_right Or.inr
        · intro h
          rcases h with h | rfl | h
          · exact Or.inl h
          · exact Or.inl hmem
          · exact Or.inr h
      next hmem =>
        obtain ⟨items, u, -, hrun⟩ := runs_run_bind_ok.mp hrun
        obtain ⟨x, v, -, hrest⟩ := runs_run_bind_ok.mp hrun
        rw [ih hrest, Finmap.mem_insert, List.map_cons, List.mem_cons, or_assoc, or_left_comm]

/-! ## Event lists -/

/-- The artifact ids that occur in the events. -/
def artifactIds (events : List Event) : List Int := events.map fun e => e.artifactId.getD 0

/-- The execution ids that occur in the events. -/
def executionIds (events : List Event) : List Int := events.map fun e => e.executionId.getD 0

/-- Exactly the records with these ids are the result. -/
structure JoinsExactly (look : Lookups) (r : Resource) (ids : List Int)
    (log : List (Exchange api))
    (result : Except GoError (Finmap fun _ : Int => Item r.kind)) : Prop where
  succeeds : (∃ m, result = .ok m) ↔ ∀ id ∈ ids, ∃ x, look r id = .ok [x]
  keys : ∀ m, result = .ok m → ∀ id, id ∈ m ↔ id ∈ ids
  values : ∀ m, result = .ok m → ∀ id ∈ ids,
    ∃ x, m.lookup id = some x ∧ look r id = .ok [x] ∧ x.id = some id
  lookups : ∀ y ∈ log, ∃ id ∈ ids, y.op = .getItemsByID r.kind [id]
  once : (log.map Exchange.op).Nodup

/-- Every id in the events is a key of the matching map, and no other key occurs. -/
structure EventList.Closed (response : EventList) : Prop where
  artifacts : ∀ id, id ∈ response.artifacts ↔ id ∈ artifactIds response.events
  executions : ∀ id, id ∈ response.executions ↔ id ∈ executionIds response.events

theorem LooksUp.joinsExactly (hlook : LooksUp E s look) {notSingle : String}
    {idOf : Event → Int} {events : List Event} {u : σ × List (Exchange api)}
    (hrun : (getInEvents r notSingle idOf events ∅).run.Runs E.logged (s, []) result u) :
    JoinsExactly look r (events.map idOf) u.2 result := by
  obtain ⟨log, hu, hjoins⟩ := hlook.joins hrun
  have hlog : u.2 = log := by rw [hu, List.nil_append]
  have hkeys : ∀ m, result = .ok m → ∀ id, id ∈ m ↔ id ∈ events.map idOf := by
    intro m hm id
    rw [getInEvents_keys (hm ▸ hrun) id]
    exact or_iff_right Finmap.notMem_empty
  exact
    { succeeds := by
        rw [hjoins.succeeds]
        exact forall₂_congr fun id _ => or_iff_right Finmap.notMem_empty
      keys := hkeys
      values := by
        intro m hm id hid
        obtain ⟨x, hx⟩ := Finmap.mem_iff.mp ((hkeys m hm id).mpr hid)
        have hone : look r id = .ok [x] := by simpa using hjoins.values m hm id x hx
        exact ⟨x, hx, hone, hlook.records r id [x] hone x List.mem_cons_self⟩
      lookups := by
        intro y hy
        obtain ⟨id, hid, -, hop⟩ := hjoins.lookups y (hlog ▸ hy)
        exact ⟨id, hid, hop⟩
      once := hlog ▸ hjoins.once }

theorem listEvents_closed {name : String} {response : EventList}
    (hrun : (listEvents name).run.Runs E s (.ok response) t) : response.Closed := by
  obtain ⟨events, u, -, hrun⟩ := runs_run_bind_ok.mp hrun
  obtain ⟨artifacts, v, hartifacts, hrun⟩ := runs_run_bind_ok.mp hrun
  obtain ⟨executions, w, hexecutions, hrun⟩ := runs_run_bind_ok.mp hrun
  obtain rfl := Except.ok.inj (runs_run_pure.mp hrun).1
  rw [runs_wrapError_ok] at hartifacts hexecutions
  apply EventList.Closed.mk
  · intro id
    rw [getInEvents_keys hartifacts id]
    exact or_iff_right Finmap.notMem_empty
  · intro id
    rw [getInEvents_keys hexecutions id]
    exact or_iff_right Finmap.notMem_empty

/-- **An event list is joined with exactly the records it refers to.** Looking up the
artifacts, or the executions, of any list of events succeeds if and only if every id in
it has exactly one record; the result then maps exactly these ids to their records, and
no id was looked up twice. So the answer to a list request is closed. -/
theorem events_joined (hlook : LooksUp E s look) :
    (∀ events result u,
      (getArtifactsInEvents events).run.Runs E.logged (s, []) result u →
        JoinsExactly look .artifact (artifactIds events) u.2 result) ∧
    (∀ events result u,
      (getExecutionsInEvents events).run.Runs E.logged (s, []) result u →
        JoinsExactly look .execution (executionIds events) u.2 result) ∧
    ∀ name response u, (listEvents name).run.Runs E s (.ok response) u → response.Closed :=
  ⟨fun _ _ _ hrun => hlook.joinsExactly (r := .artifact) hrun,
    fun _ _ _ hrun => hlook.joinsExactly (r := .execution) hrun,
    fun _ _ _ hrun => listEvents_closed hrun⟩

/-- The answers of the store in memory to lookups of single ids. -/
def storedUnder (s : Store) : Lookups :=
  fun r id => .ok ((s.contents.items r.kind).filter fun x => isAmong [id] x.id)

theorem looksUp_inMemory (s : Store) : LooksUp inMemory.effect s (storedUnder s) where
  answers r id reply t heffect := by
    cases reply with
    | ok items =>
        obtain ⟨hitems, hstate⟩ := Prod.mk.inj (Option.some.inj (inMemory_ok heffect))
        exact ⟨Store.ext hstate.symm, congrArg Except.ok hitems.symm⟩
    | error message => cases (inMemory_error heffect).1
  records r id items hlook x hx := by
    obtain rfl := Except.ok.inj hlook
    simpa [isAmong] using (List.mem_filter.mp hx).2

/-- Two events of one artifact. -/
def usedTwice : List Event := [⟨some 1, none, .input, none⟩, ⟨some 1, none, .output, none⟩]

/-- An artifact that two events refer to is looked up once. -/
theorem events_joined_repeated :
    JoinsExactly (storedUnder twoTypes) .artifact [1, 1]
      ((getArtifactsInEvents usedTwice).run.run inMemory.logged (twoTypes, [])).2.2
      ((getArtifactsInEvents usedTwice).run.run inMemory.logged (twoTypes, [])).1 :=
  (events_joined (looksUp_inMemory twoTypes)).1 usedTwice _ _
    ((runs_of_run inMemory.logged _ _).mono fun _ _ _ _ => inMemory.logged_effect)

end KfMetadata.Service
