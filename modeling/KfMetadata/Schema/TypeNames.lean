/-
# Names of stored types

A type name is meant to have the form `{namespace}/{name}`: creation is to add the
default namespace to a bare name and to reject a malformed one. The function that
does so, `getNamespacedName`, is called by no handler. The name in a request, or in
a schema, is put into the store as it is, so that stored names are qualified exactly
as long as the names that are asked for are, but for types that the store refuses for
other reasons.

Which types it refuses is decided by a table: the properties that are stored under each
name, and how many ids are left. The names after a request or a registration are
foretold from this table. Stored names are never taken away, so what holds after a step
holds at every moment of it.
-/

import KfMetadata.Mlmd.Obliging
import KfMetadata.Schema.VisitOrder
import KfMetadata.Service.Routes

namespace KfMetadata.Schema

open Mlmd Service Remote Remote.Program

/-- The name is fully qualified. -/
def Qualified (name : String) : Prop := getNamespacedName name = .ok name

/-- Every stored artifact type and execution type has a qualified name. -/
def NamesQualified (s : Store) : Prop :=
  ∀ (r : Resource), ∀ t ∈ s.contents.types r.kind, Qualified t.name

/-- The call puts an artifact type or an execution type of this name. -/
def PutsName (op : Call) (name : String) : Prop :=
  ∃ (r : Resource) (type : TypeRecord) (opts : PutTypeOptions),
    op = .putType r.kind type opts ∧ type.getName = name

variable {E : Effect api Store} {s t : Store}

/-! ## One call -/

/-- The names after a type was put are those before and its own. -/
theorem PutType.exists_name {k : Kind} {type : TypeRecord} {opts : PutTypeOptions}
    {c d : Contents} {id : Int} (hput : PutType k type opts c id d) {j : Kind} {name : String} :
    (∃ u ∈ d.types j, u.name = name) ↔
      (∃ u ∈ c.types j, u.name = name) ∨ j = k ∧ type.getName = name := by
  unfold PutType at hput
  split at hput
  next =>
    obtain ⟨-, -, rfl⟩ := hput
    by_cases hj : j = k
    · subst hj
      simp [Contents.types_addType_self, or_and_right, exists_or]
    · simp [Contents.types_addType_of_ne _ hj, hj]
  next old hold =>
    obtain ⟨-, -, rfl⟩ := hput
    have hname : old.name = type.getName := Keyed.key_of_find hold
    have hmem : old ∈ c.types k := Keyed.mem_of_find hold
    by_cases hj : j = k
    · subst hj
      have hkeys : ∀ u : StoredType, (if u.name = type.getName then
          { u with properties := type.properties } else u).name = u.name := by
        intro u
        split <;> rfl
      simp only [Contents.types_setProperties, List.mem_map, exists_exists_and_eq_and, hkeys]
      apply Iff.intro Or.inl
      intro h
      exact h.elim (fun h => h) fun heq => ⟨old, hmem, hname.trans heq.2⟩
    · simp [Contents.types_setProperties_of_ne _ _ hj, hj]

/-- Calls other than puts of types leave the types alone. -/
theorem types_of_not_putType {op : Call} {c d : Contents} {result : op.Result}
    (hdoc : Documented op c result d) (hnot : ∀ k type opts, op ≠ .putType k type opts) :
    d.types = c.types := by
  cases op with
  | putType k type opts => exact absurd rfl (hnot k type opts)
  | putItems k items => exact PutItems.types hdoc
  | putEvents events =>
      obtain ⟨now, stored, -, -, rfl⟩ := hdoc
      rfl
  | putAttributionsAndAssociations attributions associations =>
      obtain ⟨-, -, rfl⟩ := hdoc
      rfl
  | _ => rw [hdoc.1]

theorem namesQualified_iff : NamesQualified s ↔
    ∀ (r : Resource) (name : String), (∃ u ∈ s.contents.types r.kind, u.name = name) →
      Qualified name := by
  apply Iff.intro
  · intro hqualified r name hname
    obtain ⟨u, hu, rfl⟩ := hname
    exact hqualified r u hu
  · exact fun hall r u hu => hall r u.name ⟨u, hu, rfl⟩

theorem putsName_putType {k : Kind} {type : TypeRecord} {opts : PutTypeOptions} {name : String} :
    PutsName (.putType k type opts) name ↔
      ∃ r : Resource, r.kind = k ∧ type.getName = name := by
  apply Iff.intro
  · intro hputs
    obtain ⟨r, type', opts', heq, hname⟩ := hputs
    obtain ⟨hkind, htype, -⟩ := Call.putType.inj heq
    exact ⟨r, hkind.symm, htype ▸ hname⟩
  · intro hname
    obtain ⟨r, rfl, hname⟩ := hname
    exact ⟨r, type, opts, rfl, hname⟩

/-- One call keeps names qualified if and only if it stores no other name. -/
theorem namesQualified_call (hE : Lawful E) {op : Call} {reply : Except String op.Result}
    (hcall : E op s reply t) :
    NamesQualified t ↔ NamesQualified s ∧
      ∀ result name, reply = .ok result → PutsName op name → Qualified name := by
  cases reply with
  | error message =>
      obtain rfl := hE.refused op s t message hcall
      simp
  | ok result =>
      have hdoc := hE.accepted op s t result hcall
      by_cases hput : ∃ k type opts, op = .putType k type opts
      · obtain ⟨k, type, opts, rfl⟩ := hput
        have hnames : ∀ (r : Resource) (name : String),
            (∃ u ∈ t.contents.types r.kind, u.name = name) ↔
              (∃ u ∈ s.contents.types r.kind, u.name = name) ∨
                r.kind = k ∧ type.getName = name :=
          fun r name => PutType.exists_name hdoc
        simp only [namesQualified_iff, hnames, putsName_putType]
        apply Iff.intro
        · intro hall
          apply And.intro fun r name hname => hall r name (Or.inl hname)
          intro _ name _ hputs
          obtain ⟨r, hr⟩ := hputs
          exact hall r name (Or.inr hr)
        · intro hboth r name hname
          cases hname with
          | inl hold => exact hboth.1 r name hold
          | inr hnew => exact hboth.2 result name rfl ⟨r, hnew⟩
      · have htypes := types_of_not_putType hdoc fun k type opts heq => hput ⟨k, type, opts, heq⟩
        have hnone : ∀ name, ¬ PutsName op name := by
          intro name hputs
          obtain ⟨r, type, opts, heq, -⟩ := hputs
          exact hput ⟨r.kind, type, opts, heq⟩
        simp [NamesQualified, htypes, hnone]

/-- Names are never taken away. -/
theorem namesQualified_of_runs (hE : Lawful E) {α : Type} {p : Program api α} {a : α}
    (hrun : p.Runs E s a t) (ht : NamesQualified t) : NamesQualified s := by
  induction p generalizing s with
  | done value =>
      obtain ⟨-, rfl⟩ := runs_pure.mp hrun
      exact ht
  | call op next ih =>
      obtain ⟨reply, u, hcall, hrest⟩ := Program.runs_call.mp hrun
      exact ((namesQualified_call hE hcall).mp (ih reply hrest)).1

/-! ## What the store refuses -/

/-- What decides about puts of types: the properties under each name, and how many ids are
left. -/
@[ext]
structure TypeTable where
  properties : Kind → String → Option (StringMap PropertyType)
  free : Kind → Nat

def typeTable (s : Store) : TypeTable where
  properties := typeProperties s
  free k := (freeIds s.contents k).card

theorem typeTable_properties (s : Store) (k : Kind) (name : String) :
    (typeTable s).properties k name = (s.contents.findType k name).map StoredType.properties := rfl

theorem typeTable_free (s : Store) (k : Kind) :
    (typeTable s).free k = (freeIds s.contents k).card := by
  simp only [typeTable]

namespace TypeTable

variable (T : TypeTable)

/-- A type is refused if its name is taken and its properties are not admitted there, or if
its name is new and no id is left. -/
def Refuses (k : Kind) (type : TypeRecord) (opts : PutTypeOptions) : Prop :=
  match T.properties k type.getName with
  | some old => ¬ opts.Admits old type.properties
  | none => T.free k = 0

/-- The table after a strict put. -/
def put (k : Kind) (type : TypeRecord) : TypeTable :=
  match T.properties k type.getName with
  | some _ => T
  | none =>
      { properties := fun j name =>
          if j = k ∧ name = type.getName then some type.properties else T.properties j name
        free := fun j => if j = k then T.free j - 1 else T.free j }

/-- A type is registered if it is not refused, and there is a type of the name that it is
then looked up by. -/
def Registers (r : Resource) (type : TypeRecord) : Prop :=
  ¬ T.Refuses r.kind type createOptions ∧
    ((T.put r.kind type).properties r.kind
      (Text.trimPrefix type.getName r.typesCollection)).isSome

end TypeTable

/-- What can be put is not refused. -/
theorem not_refuses_of_putType {k : Kind} {type : TypeRecord} {opts : PutTypeOptions} {id : Int}
    {d : Contents} (hput : PutType k type opts s.contents id d) :
    ¬ (typeTable s).Refuses k type opts := by
  rw [TypeTable.Refuses, typeTable_properties, typeTable_free]
  unfold PutType at hput
  cases hfind : s.contents.findType k type.getName with
  | none =>
      rw [hfind] at hput
      obtain ⟨hid, hfresh, -⟩ := hput
      have hfree : id ∈ freeIds s.contents k := mem_freeIds.mpr ⟨hid, hfresh⟩
      exact (Finset.card_pos.mpr ⟨id, hfree⟩).ne'
  | some old =>
      rw [hfind] at hput
      exact fun hnot => hnot hput.2.1

/-- What is not refused can be put. -/
theorem exists_putType {k : Kind} {type : TypeRecord} {opts : PutTypeOptions}
    (hnot : ¬ (typeTable s).Refuses k type opts) :
    ∃ (id : Int) (t : Store), PutType k type opts s.contents id t.contents := by
  rw [TypeTable.Refuses, typeTable_properties, typeTable_free] at hnot
  simp only [PutType]
  cases hfind : s.contents.findType k type.getName with
  | none =>
      rw [hfind] at hnot
      obtain ⟨id, hfree⟩ := Finset.card_pos.mp (Nat.pos_of_ne_zero hnot)
      obtain ⟨hid, hfresh⟩ := mem_freeIds.mp hfree
      exact ⟨id, ⟨_, s.wellFormed.addType hfind hfresh⟩, hid, hfresh, rfl⟩
  | some old =>
      rw [hfind] at hnot
      exact ⟨old.id, ⟨_, s.wellFormed.setProperties type.getName type.properties⟩, rfl,
        not_not.mp hnot, rfl⟩

/-- The table foretells a strict put. -/
theorem typeTable_put (hE : Lawful E) {k : Kind} {type : TypeRecord} {id : Int}
    (hput : E (.putType k type createOptions) s (.ok id) t) :
    typeTable t = (typeTable s).put k type := by
  rw [TypeTable.put]
  rcases strictPut_cases hE hput with ⟨rfl, hstored⟩ | ⟨hmissing, hid, hfresh, ht⟩
  · have hthere : (typeTable t).properties k type.getName = some type.properties := hstored
    rw [hthere]
  · have hnone : (typeTable s).properties k type.getName = none := by
      rw [typeTable_properties, ← Store.findType, hmissing]
      rfl
    rw [hnone]
    have hfree : ∀ j, (typeTable t).free j =
        if j = k then (typeTable s).free j - 1 else (typeTable s).free j := by
      intro j
      rw [typeTable_free, typeTable_free]
      split
      next hj =>
        subst hj
        have hcard := card_freeIds_addType hid hfresh ht
        omega
      next hj => rw [freeIds, freeIds, ht, Contents.types_addType_of_ne _ hj]
    have hproperties : ∀ j name, (typeTable t).properties j name =
        if j = k ∧ name = type.getName then some type.properties
        else (typeTable s).properties j name :=
      typeProperties_addType hmissing ht
    exact TypeTable.ext (funext fun j => funext (hproperties j)) (funext hfree)

/-! ## One type -/

/-- What is stored keeps its names qualified if only a qualified name is asked for, or the
type is refused. Conversely, an obliging store has stored what it need not refuse. -/
theorem namesQualified_put (hE : Lawful E) {k : Kind} {r : Resource} (hk : r.kind = k)
    {type : TypeRecord} {opts : PutTypeOptions} {reply : Except String Int}
    (hs : NamesQualified s) (hcall : E (.putType k type opts) s reply t) :
    (Qualified type.getName ∨ (typeTable s).Refuses k type opts → NamesQualified t) ∧
      (Obliging E → NamesQualified t →
        Qualified type.getName ∨ (typeTable s).Refuses k type opts) := by
  rw [namesQualified_call hE hcall, and_iff_right hs]
  apply And.intro
  · intro hasks id name hok hputs
    subst hok
    obtain ⟨-, -, rfl⟩ := putsName_putType.mp hputs
    have hdoc := hE.accepted (.putType k type opts) s t id hcall
    exact hasks.resolve_right (not_refuses_of_putType hdoc)
  · intro hobliging hall
    by_cases hrefused : (typeTable s).Refuses k type opts
    · exact Or.inr hrefused
    · obtain ⟨id, u, hput⟩ := exists_putType hrefused
      cases reply with
      | error message =>
          exact absurd hput (hobliging.refuses (.putType k type opts) s t message hcall id u)
      | ok id' => exact Or.inl (hall id' type.getName rfl (putsName_putType.mpr ⟨r, hk, rfl⟩))

/-- The same for the handlers that put a type, which then only look it up. -/
theorem namesQualified_putType (hE : Lawful E) {r : Resource} {opts : PutTypeOptions}
    {type : TypeRecord} {reply : Except GoError TypeRecord} (hs : NamesQualified s)
    (hrun : (putType r opts (some type)).run.Runs E s reply t) :
    (Qualified type.getName ∨ (typeTable s).Refuses r.kind type opts → NamesQualified t) ∧
      (Obliging E → NamesQualified t →
        Qualified type.getName ∨ (typeTable s).Refuses r.kind type opts) := by
  rcases runs_putType.mp hrun with ⟨message, -, hcall⟩ | ⟨id, u, hcall, hget⟩
  · exact namesQualified_put hE rfl hs hcall
  · have hsame : t = u := by
      cases reply with
      | ok value => exact (getType_ok hE hget).1
      | error e => exact getType_error hE hget
    rw [hsame]
    exact namesQualified_put hE rfl hs hcall

/-! ## Registration -/

/-- The schemas that are visited, as long as those before them are registered, define types
under qualified names, or types that the store refuses. -/
def SchemasQualified (ss : SchemaSet) (depth : Nat) : List String → TypeTable → Prop
  | [], _ => True
  | id :: ids, T =>
      match schemaType ss depth id with
      | .error _ => True
      | .ok none => SchemasQualified ss depth ids T
      | .ok (some (r, type)) =>
          (Qualified type.getName ∨ T.Refuses r.kind type createOptions) ∧
            (T.Registers r type → SchemasQualified ss depth ids (T.put r.kind type))

/-- A type that has been registered was not refused and is found; one that an obliging store
has not registered was refused, or is not found. -/
theorem registers_of_runs (hE : Lawful E) {r : Resource} {type : TypeRecord}
    {result : Except Failure Unit} (hrun : (registerType r type).run.Runs E s result t) :
    (result = .ok () → (typeTable s).Registers r type ∧
      typeTable t = (typeTable s).put r.kind type) ∧
    (Obliging E → (typeTable s).Registers r type → result = .ok ()) := by
  obtain ⟨reply, hput, rfl⟩ := runs_registerType.mp hrun
  rcases runs_putType.mp hput with ⟨message, rfl, hcall⟩ | ⟨id, u, hcall, hget⟩
  · refine ⟨fun hok => (by cases hok), fun hobliging hregisters => ?_⟩
    obtain ⟨id, u, hput⟩ := exists_putType hregisters.1
    exact absurd hput
      (hobliging.refuses (.putType r.kind type createOptions) s t message hcall id u)
  · have hnot := not_refuses_of_putType
      (hE.accepted (.putType r.kind type createOptions) s u id hcall)
    have htable := typeTable_put hE hcall
    cases reply with
    | ok value =>
        obtain ⟨rfl, stored, hstored, -⟩ := getType_ok hE hget
        refine ⟨fun _ => ⟨⟨hnot, ?_⟩, htable⟩, fun _ _ => rfl⟩
        rw [← htable, typeTable_properties, ← Store.findType, hstored]
        rfl
    | error e =>
        refine ⟨fun hok => (by cases hok), fun hobliging hregisters => ?_⟩
        have hfound := hregisters.2
        rw [← htable, typeTable_properties, Option.isSome_map, ← Store.findType] at hfound
        obtain ⟨stored, hstored⟩ := Option.isSome_iff_exists.mp hfound
        obtain ⟨message, -, hlookup⟩ := (runs_storeCall_error (.getType _ _)).mp hget
        cases (hobliging.getType hstored hlookup).2

/-- **Names after a registration.** They are qualified if the schemas that are visited are;
an obliging store has not stored any other name then. -/
theorem namesQualified_registerIn (hE : Lawful E) {ss : SchemaSet} {depth : Nat}
    {order : List String} {result : Except Failure (List String)} (hs : NamesQualified s)
    (hrun : (registerIn ss depth order).run.Runs E s result t) :
    (SchemasQualified ss depth order (typeTable s) → NamesQualified t) ∧
      (Obliging E → NamesQualified t → SchemasQualified ss depth order (typeTable s)) := by
  induction order generalizing s result with
  | nil =>
      obtain ⟨-, rfl⟩ := runs_run_pure.mp hrun
      exact ⟨fun _ => hs, fun _ _ => trivial⟩
  | cons id ids ih =>
      unfold registerIn at hrun
      unfold SchemasQualified
      cases htype : schemaType ss depth id with
      | error failure =>
          rw [htype] at hrun
          obtain ⟨-, rfl⟩ := runs_run_throw.mp hrun
          exact ⟨fun _ => hs, fun _ _ => trivial⟩
      | ok found =>
          rw [htype] at hrun
          cases found with
          | none => exact ih hs hrun
          | some defined =>
              obtain ⟨r, type⟩ := defined
              -- The names after the type are those after its put.
              have hone : ∀ {result u}, (registerType r type).run.Runs E s result u →
                  (Qualified type.getName ∨ (typeTable s).Refuses r.kind type createOptions →
                    NamesQualified u) ∧
                  (Obliging E → NamesQualified u →
                    Qualified type.getName ∨
                      (typeTable s).Refuses r.kind type createOptions) := by
                intro result u hregister
                obtain ⟨reply, hput, -⟩ := runs_registerType.mp hregister
                exact namesQualified_putType hE hs hput
              rcases runs_run_bind.mp hrun with ⟨failure, -, hfailed⟩ | ⟨⟨⟩, u, hregister, hrest⟩
              · obtain ⟨-, hregisters⟩ := registers_of_runs hE hfailed
                refine ⟨fun hall => (hone hfailed).1 hall.1, fun hobliging ht => ?_⟩
                refine ⟨(hone hfailed).2 hobliging ht, fun hregistered => ?_⟩
                cases hregisters hobliging hregistered
              · obtain ⟨hregistered, htable⟩ := (registers_of_runs hE hregister).1 rfl
                have hloop : ∃ result', (registerIn ss depth ids).run.Runs E u result' t := by
                  rcases runs_run_bind.mp hrest with ⟨e, -, hloop⟩ | ⟨types, v, hloop, hresult⟩
                  · exact ⟨_, hloop⟩
                  · obtain ⟨-, rfl⟩ := runs_run_pure.mp hresult
                    exact ⟨_, hloop⟩
                obtain ⟨result', hloop⟩ := hloop
                apply And.intro
                · intro hall
                  have hlater := hall.2 hregistered
                  rw [← htable] at hlater
                  exact (ih ((hone hregister).1 hall.1) hloop).1 hlater
                · intro hobliging ht
                  have hu := namesQualified_of_runs hE hloop ht
                  refine ⟨(hone hregister).2 hobliging hu, fun _ => ?_⟩
                  rw [← htable]
                  exact (ih hu hloop).2 hobliging ht

/-! ## Whole runs -/

/-- What is served: the registration of the schemas of a directory, or a request. -/
inductive Entry
  | register (loaded : Except GoError SchemaSet) (depth : Nat) (order : List String)
  | respond (request : Request)

/-- What an entry ends in. -/
inductive Entry.Outcome
  | registered (result : Except Failure (List String))
  | answered (request : Request) (reply : Except GoError request.Response)

/-- The program of an entry. -/
def Entry.serve : Entry → Program api Entry.Outcome
  | .register loaded depth order => .registered <$> (registerSchemas loaded depth order).run
  | .respond request => .answered request <$> (handle request).run

/-- The type that a request asks for has a qualified name, or is refused; and so have the
types that the schemas of a directory define. -/
def Entry.AsksQualified (entry : Entry) (T : TypeTable) : Prop :=
  match entry with
  | .register (.error _) _ _ => True
  | .register (.ok ss) depth order => SchemasQualified ss depth order T
  | .respond request => ∀ (r : Resource) (type : TypeRecord) (opts : PutTypeOptions),
      request.Writes (.putType r.kind type opts) →
        Qualified type.getName ∨ T.Refuses r.kind type opts

/-- Starting with an empty store, entries are served one after another, each of which asks
for qualified names. -/
inductive Reachable (E : Effect api Store) : Store → Prop
  | empty : Reachable E .empty
  | serve {s t : Store} (entry : Entry) (outcome : Entry.Outcome) (hbefore : Reachable E s)
      (hasks : entry.AsksQualified (typeTable s)) (hrun : entry.serve.Runs E s outcome t) :
      Reachable E t

/-- Whoever asks for a type gets it under its namespaced name, and an error if the name
is malformed. -/
def NamedAsAsked (entry : Entry) (outcome : Entry.Outcome) (t : Store) : Prop :=
  ∀ (request : Request) (reply : Except GoError request.Response) (r : Resource)
    (type : TypeRecord) (opts : PutTypeOptions), entry = .respond request →
    outcome = .answered request reply → request.Writes (.putType r.kind type opts) →
    (∀ name value, getNamespacedName type.getName = .ok name → reply = .ok value →
      (t.findType r.kind name).isSome) ∧
    ∀ e, getNamespacedName type.getName = .error e → ∃ e', reply = .error e'

/-- A request for a type is answered by putting it. -/
theorem runs_putType_of_writes {request : Request} {reply : Except GoError request.Response}
    {r : Resource} {type : TypeRecord} {opts : PutTypeOptions}
    (hwrites : request.Writes (.putType r.kind type opts))
    (hrun : (handle request).run.Runs E s reply t) :
    ∃ reply', (putType r opts (some type)).run.Runs E s reply' t ∧
      ∀ value, reply = .ok value → ∃ value', reply' = .ok value' := by
  cases r with
  | artifact =>
      cases hwrites with
      | createArtifactType => exact ⟨reply, hrun, fun value hok => ⟨value, hok⟩⟩
      | updateArtifactType => exact ⟨reply, hrun, fun value hok => ⟨value, hok⟩⟩
  | execution =>
      cases hwrites with
      | createExecutionType => exact ⟨reply, hrun, fun value hok => ⟨value, hok⟩⟩
      | updateExecutionType => exact ⟨reply, hrun, fun value hok => ⟨value, hok⟩⟩

/-- A request asks for one type at most. -/
theorem writes_unique {request : Request} {r r' : Resource} {type type' : TypeRecord}
    {opts opts' : PutTypeOptions} (hwrites : request.Writes (.putType r.kind type opts))
    (hwrites' : request.Writes (.putType r'.kind type' opts')) :
    r' = r ∧ type' = type ∧ opts' = opts := by
  cases r <;> cases r' <;> cases hwrites <;> cases hwrites' <;> exact ⟨rfl, rfl, rfl⟩

/-- A request for no type leaves the names alone. -/
theorem namesQualified_handle (hE : Lawful E) {request : Request}
    {reply : Except GoError request.Response} (hs : NamesQualified s)
    (hnone : ∀ (r : Resource) type opts, ¬ request.Writes (.putType r.kind type opts))
    (hrun : (handle request).run.Runs E s reply t) : NamesQualified t := by
  refine hrun.preserves (uses_handle request) (fun op u reply' v hop hcall hu => ?_) hs
  apply (namesQualified_call hE hcall).mpr
  refine ⟨hu, fun result name _ hputs => ?_⟩
  obtain ⟨r, type, opts, rfl, -⟩ := hputs
  exact hop.elim False.elim fun hwrites => absurd hwrites (hnone r type opts)

/-- **Names after an entry.** They are qualified if it asks for qualified names only, and an
obliging store has not stored any other name then. -/
theorem namesQualified_serve (hE : Lawful E) {entry : Entry} {outcome : Entry.Outcome}
    (hs : NamesQualified s) (hrun : entry.serve.Runs E s outcome t) :
    (entry.AsksQualified (typeTable s) → NamesQualified t) ∧
      (Obliging E → NamesQualified t → entry.AsksQualified (typeTable s)) := by
  cases entry with
  | register loaded depth order =>
      obtain ⟨result, hregister, -⟩ := runs_map.mp hrun
      cases loaded with
      | error e =>
          obtain ⟨-, rfl⟩ := runs_run_throw.mp hregister
          exact ⟨fun _ => hs, fun _ _ => trivial⟩
      | ok ss => exact namesQualified_registerIn hE hs hregister
  | respond request =>
      obtain ⟨reply, hhandle, -⟩ := runs_map.mp hrun
      by_cases hputs : ∃ (r : Resource) (type : TypeRecord) (opts : PutTypeOptions),
          request.Writes (.putType r.kind type opts)
      · obtain ⟨r, type, opts, hwrites⟩ := hputs
        obtain ⟨reply', hput, -⟩ := runs_putType_of_writes hwrites hhandle
        obtain ⟨hkeeps, hasks⟩ := namesQualified_putType hE hs hput
        refine ⟨fun hall => hkeeps (hall r type opts hwrites), ?_⟩
        intro hobliging ht r' type' opts' hwrites'
        obtain ⟨rfl, rfl, rfl⟩ := writes_unique hwrites hwrites'
        exact hasks hobliging ht
      · have hnone : ∀ (r : Resource) type opts, ¬ request.Writes (.putType r.kind type opts) :=
          fun r type opts hwrites => hputs ⟨r, type, opts, hwrites⟩
        exact ⟨fun _ => namesQualified_handle hE hs hnone hhandle,
          fun _ _ r type opts hwrites => absurd hwrites (hnone r type opts)⟩

/-- A type that is asked for under a qualified name is stored under it. -/
theorem namedAsAsked_of_asks (hE : Lawful E) {entry : Entry} {outcome : Entry.Outcome}
    (hasks : entry.AsksQualified (typeTable s)) (hrun : entry.serve.Runs E s outcome t) :
    NamedAsAsked entry outcome t := by
  rintro request reply r type opts rfl rfl hwrites
  obtain ⟨reply', hhandle, houtcome⟩ := runs_map.mp hrun
  obtain rfl : reply' = reply := by simpa using houtcome
  obtain ⟨reply, hput, hok⟩ := runs_putType_of_writes hwrites hhandle
  have hstored : ∀ value, reply' = .ok value →
      Qualified type.getName ∧ (t.findType r.kind type.getName).isSome := by
    intro value hvalue
    obtain ⟨value', rfl⟩ := hok value hvalue
    rcases runs_putType.mp hput with ⟨message, herror, -⟩ | ⟨id, u, hcall, hget⟩
    · cases herror
    · obtain ⟨rfl, -⟩ := getType_ok hE hget
      have hnot := not_refuses_of_putType (hE.accepted (.putType r.kind type opts) s t id hcall)
      refine ⟨(hasks r type opts hwrites).resolve_right hnot, ?_⟩
      rw [(findType_of_putType hE hcall).1]
      rfl
  apply And.intro
  · intro name value hname hvalue
    obtain ⟨hqualified, hfound⟩ := hstored value hvalue
    obtain rfl := Except.ok.inj (hname.symm.trans hqualified)
    exact hfound
  · intro e hmalformed
    cases reply' with
    | error e' => exact ⟨e', rfl⟩
    | ok value =>
        have hqualified := (hstored value rfl).1
        rw [Qualified, hmalformed] at hqualified
        cases hqualified

/-- **When stored names are qualified.** As long as every entry asks for qualified names
only, or for types that the store refuses, every state that is reached holds qualified names
only, and types are given the names that were asked for. In an obliging store this is the
only way: from such a state, an entry leaves qualified names and gives types the names that
were asked for if and only if it asks in this way. -/
theorem names_qualified (hE : Lawful E) :
    (∀ s, Reachable E s → NamesQualified s) ∧
    ∀ s entry outcome t, Reachable E s → entry.serve.Runs E s outcome t →
      (entry.AsksQualified (typeTable s) → NamesQualified t ∧ NamedAsAsked entry outcome t) ∧
      (Obliging E →
        (NamesQualified t ∧ NamedAsAsked entry outcome t ↔
          entry.AsksQualified (typeTable s))) := by
  have hreached : ∀ s, Reachable E s → NamesQualified s := by
    intro s hreach
    induction hreach with
    | empty => exact fun r u hu => absurd hu List.not_mem_nil
    | serve entry outcome _ hasks hrun ih => exact (namesQualified_serve hE ih hrun).1 hasks
  apply And.intro hreached
  intro s entry outcome t hreach hrun
  obtain ⟨hkeeps, hasks⟩ := namesQualified_serve hE (hreached s hreach) hrun
  have hright : entry.AsksQualified (typeTable s) →
      NamesQualified t ∧ NamedAsAsked entry outcome t :=
    fun hall => ⟨hkeeps hall, namedAsAsked_of_asks hE hall hrun⟩
  exact ⟨hright, fun hobliging => ⟨fun hboth => hasks hobliging hboth.1, hright⟩⟩

/-! ## Two names -/

/-- A request to create an artifact type of a name. -/
def createNamed (name : String) : Entry :=
  .respond (.createArtifactType (some ⟨none, some name, ∅⟩))

theorem asksQualified_createNamed {name : String} {T : TypeTable} (hname : Qualified name) :
    (createNamed name).AsksQualified T := by
  intro r type opts hwrites
  cases r with
  | artifact =>
      cases hwrites
      exact Or.inl hname
  | execution => cases hwrites

/-- The schemas of a directory are registered, and then a type is created: both under names of
the documented form. -/
theorem names_qualified_org : ∃ outcome, ∃ t : Store,
    (createNamed "org/ml/model").serve.Runs inMemory.effect registered outcome t ∧
      NamesQualified t ∧ NamedAsAsked (createNamed "org/ml/model") outcome t := by
  have hfirst : (Entry.register (.ok modelSchema) 1 ["model"]).serve.Runs inMemory.effect
      Store.empty (.registered (.ok ["kubeflow.org/alpha/model"])) registered :=
    runs_map.mpr ⟨_, runs_registerSchemas_modelSchema, rfl⟩
  have hasks : (Entry.register (.ok modelSchema) 1 ["model"]).AsksQualified
      (typeTable Store.empty) := ⟨Or.inl rfl, fun _ => trivial⟩
  have hsecond := runs_of_run inMemory (createNamed "org/ml/model").serve registered
  have hexact := (names_qualified inMemory_available.toLawful).2 _ _ _ _
    (.serve _ _ .empty hasks hfirst) hsecond
  exact ⟨_, _, hsecond, hexact.1 (asksQualified_createNamed rfl)⟩

/-- A bare name is stored as it is, and not under the default namespace. -/
theorem bare_name_stored :
    ∃ outcome t, (createNamed "model").serve.Runs inMemory.effect Store.empty outcome t ∧
      getNamespacedName "model" = .ok "types.kubeflow.org/default/model" ∧ ¬ NamesQualified t := by
  refine ⟨_, _, runs_of_run inMemory _ Store.empty, rfl, ?_⟩
  intro hqualified
  have hname : Qualified "model" := hqualified .artifact ⟨1, "model", ∅⟩ (by decide)
  have hother : getNamespacedName "model" = .ok "types.kubeflow.org/default/model" := rfl
  rw [Qualified, hother] at hname
  exact absurd (Except.ok.inj hname) (by decide)

end KfMetadata.Schema
