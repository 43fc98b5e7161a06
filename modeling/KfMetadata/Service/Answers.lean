/-
# What answers say stays true

The store is only ever added to by requests, and what a handler answers it has read
in the store. So an answer stays true while other requests go on: a record that was
answered is stored unchanged ever after, a listed one is listed again, and an event
that was created is in every later list. Two answers never tell two things of one
record, whichever clients they went to and however their calls were interleaved.

The first part says of every request what its answer stays true of. The second looks
at a request that is sent after some answer, and what its own answer must then be.
-/

import KfMetadata.Service.Listings

namespace KfMetadata.Service

open Mlmd Remote Remote.Program

/-! ## While other requests go on -/

/-- What the calls of a handler do to the store. -/
def Adds (s t : Store) : Prop :=
  s.Grows t ∧ (s.contents.Consistent → t.contents.Consistent)

/-- Between the calls of the program others add to the store. The program only adds to
it too, as long as `P` holds, and its result satisfies `post`. -/
abbrev Meanwhile {α : Type} (E : Effect api Store) (P : Store → Prop) (post : α → Store → Prop)
    (p : Program api α) (s : Store) : Prop :=
  p.Safe E (fun t => t.contents.Consistent ∧ P t) Store.Grows Adds post s

/-- The same for a result that is no error. -/
abbrev MeanwhileOk {α : Type} (E : Effect api Store) (P : Store → Prop) (post : α → Store → Prop)
    (x : Handler α) (s : Store) : Prop :=
  SafeOk E (fun t => t.contents.Consistent ∧ P t) Store.Grows Adds post x s

variable {E : Effect api Store} {P : Store → Prop} {s t u : Store} {α β : Type}

theorem grows_refl (s : Store) : s.Grows s := Contents.Grows.refl s.contents

theorem grows_trans (s t u : Store) (hfirst : s.Grows t) (hsecond : t.Grows u) : s.Grows u :=
  Contents.Grows.trans hfirst hsecond

theorem mem_of_grows {k : Kind} {x : Item k} (hgrows : s.Grows t)
    (hx : x ∈ s.contents.items k) : x ∈ t.contents.items k :=
  (hgrows.items k).subset hx

/-- The records that a listing asks for stay among those it asks for. -/
theorem asked_of_grows {r : Resource} {name : String} (hgrows : s.Grows t) :
    (asked r name s.contents).Sublist (asked r name t.contents) := by
  unfold asked
  split
  next => exact (hgrows.items r.kind).sublist
  next => exact hgrows.itemsOfType _

/-- One call, from any state that the others may have led to. -/
theorem meanwhile_call (hE : Sound E) (op : Call) (hinserts : op.Inserts)
    {post : Except String op.Result → Store → Prop}
    (hpost : ∀ t reply u, t.contents.Consistent → P t → E op t reply u → post reply u)
    (hstable : ∀ reply t u, t.Grows u → post reply t → post reply u) :
    Meanwhile E P post (call op) s := by
  intro t _ hinv reply u heffect
  refine ⟨⟨hE.grows hinserts heffect, hE.consistent heffect⟩, fun v huv _ => ?_⟩
  exact hstable reply u v huv (hpost t reply u hinv.1 hinv.2 heffect)

theorem meanwhile_storeCall (hE : Sound E) (op : Call) (hinserts : op.Inserts)
    {post : op.Result → Store → Prop}
    (hpost : ∀ t result u, t.contents.Consistent → P t → E op t (.ok result) u → post result u)
    (hstable : ∀ result t u, t.Grows u → post result t → post result u) :
    MeanwhileOk E P post (storeCall op) s := by
  apply safe_storeCall
  intro t _ hinv reply u heffect
  refine ⟨⟨hE.grows hinserts heffect, hE.consistent heffect⟩, fun result hreply v huv _ => ?_⟩
  subst hreply
  exact hstable result u v huv (hpost t result u hinv.1 hinv.2 heffect)

/-- A composition, through what the first part establishes and the others keep. -/
theorem MeanwhileOk.bind (mid : α → Store → Prop) {post : β → Store → Prop} {x : Handler α}
    {f : α → Handler β} (hfirst : MeanwhileOk E P mid x s)
    (hrest : ∀ a t, mid a t → MeanwhileOk E P post (f a) t) :
    MeanwhileOk E P post (x >>= f) s :=
  SafeOk.bind mid grows_refl grows_trans hfirst fun a t hinv hmid =>
    hrest a t (hmid t (grows_refl t) hinv)

theorem MeanwhileOk.pure {post : α → Store → Prop} {a : α} (hpost : post a s)
    (hstable : ∀ t, s.Grows t → post a s → post a t) :
    MeanwhileOk E P post (Pure.pure a : Handler α) s :=
  SafeOk.pure fun t hst _ => hstable t hst hpost

theorem meanwhile_wrapError {format : String} {args : List Arg} {x : Handler α}
    {post : α → Store → Prop} (hx : MeanwhileOk E P post x s) :
    MeanwhileOk E P post (wrapError format args x) s :=
  safe_wrapError grows_refl grows_trans hx

/-! ## What answers say -/

/-- A type of this name and id is stored, with at least these properties. -/
def TypeKept (r : Resource) (type : TypeRecord) (s : Store) : Prop :=
  ∃ u ∈ s.contents.types r.kind, type.id = some u.id ∧ type.name = some u.name ∧
    Extends type.properties u.properties

/-- These are the stored records that the events refer to. -/
structure Joined (r : Resource) (idOf : Event → Int) (events : List Event)
    (records : Finmap fun _ : Int => Item r.kind) (s : Store) : Prop where
  keys : ∀ id, id ∈ records ↔ id ∈ events.map idOf
  stored : ∀ id x, records.lookup id = some x → s.findItem r.kind id = some x

/-- What the answer to a request says is stored. -/
def Kept : (request : Request) → request.Response → Store → Prop
  | .createArtifactType _, type, s => TypeKept .artifact type s
  | .updateArtifactType _, type, s => TypeKept .artifact type s
  | .getArtifactType _, type, s => TypeKept .artifact type s
  | .listArtifactTypes, types, s => ∀ type ∈ types, TypeKept .artifact type s
  | .createArtifact _ _, artifact, s => artifact ∈ s.contents.items .artifact
  | .getArtifact _, artifact, s => artifact ∈ s.contents.items .artifact
  | .listArtifacts name, artifacts, s => artifacts.Subperm (asked .artifact name s.contents)
  | .createExecutionType _, type, s => TypeKept .execution type s
  | .updateExecutionType _, type, s => TypeKept .execution type s
  | .getExecutionType _, type, s => TypeKept .execution type s
  | .listExecutionTypes, types, s => ∀ type ∈ types, TypeKept .execution type s
  | .createExecution _ _, execution, s => execution ∈ s.contents.items .execution
  | .getExecution _, execution, s => execution ∈ s.contents.items .execution
  | .listExecutions name, executions, s =>
      executions.Subperm (asked .execution name s.contents)
  | .createEvent event, _, s => ∃ e now, event = some e ∧ e.stamp now ∈ s.contents.events
  | .listEvents _, list, s =>
      (∀ e ∈ list.events, e ∈ s.contents.events) ∧
        Joined .artifact (fun e => e.artifactId.getD 0) list.events list.artifacts s ∧
          Joined .execution (fun e => e.executionId.getD 0) list.events list.executions s
  -- A deletion is never answered.
  | .deleteArtifactType _, _, _ => False
  | .deleteArtifact _, _, _ => False
  | .deleteExecutionType _, _, _ => False
  | .deleteExecution _, _, _ => False

theorem TypeKept.of_grows {r : Resource} {type : TypeRecord} (hkept : TypeKept r type s)
    (hgrows : s.Grows t) : TypeKept r type t := by
  obtain ⟨u, hu, hid, hname, hextends⟩ := hkept
  obtain ⟨v, hv, hvid, hvname, hvextends⟩ := hgrows.types r.kind u hu
  exact ⟨v, hv, by rw [hid, hvid], by rw [hname, hvname], hextends.trans hvextends⟩

theorem Joined.of_grows {r : Resource} {idOf : Event → Int} {events : List Event}
    {records : Finmap fun _ : Int => Item r.kind} (hjoined : Joined r idOf events records s)
    (hgrows : s.Grows t) : Joined r idOf events records t :=
  ⟨hjoined.keys, fun id x hx => hgrows.findItem (hjoined.stored id x hx)⟩

/-- An answer stays true as the store grows. -/
theorem Kept.of_grows {request : Request} {response : request.Response}
    (hkept : Kept request response s) (hgrows : s.Grows t) : Kept request response t := by
  cases request with
  | createArtifactType type => exact TypeKept.of_grows hkept hgrows
  | updateArtifactType type => exact TypeKept.of_grows hkept hgrows
  | getArtifactType name => exact TypeKept.of_grows hkept hgrows
  | listArtifactTypes => exact fun type htype => (hkept type htype).of_grows hgrows
  | createArtifact parent artifact => exact mem_of_grows hgrows hkept
  | getArtifact name => exact mem_of_grows hgrows hkept
  | listArtifacts name => exact List.Subperm.trans hkept (asked_of_grows hgrows).subperm
  | createExecutionType type => exact TypeKept.of_grows hkept hgrows
  | updateExecutionType type => exact TypeKept.of_grows hkept hgrows
  | getExecutionType name => exact TypeKept.of_grows hkept hgrows
  | listExecutionTypes => exact fun type htype => (hkept type htype).of_grows hgrows
  | createExecution parent execution => exact mem_of_grows hgrows hkept
  | getExecution name => exact mem_of_grows hgrows hkept
  | listExecutions name => exact List.Subperm.trans hkept (asked_of_grows hgrows).subperm
  | createEvent event =>
      obtain ⟨e, now, hevent, hmem⟩ := hkept
      exact ⟨e, now, hevent, hgrows.events.subset hmem⟩
  | listEvents name =>
      obtain ⟨hevents, hartifacts, hexecutions⟩ := hkept
      exact ⟨fun e he => hgrows.events.subset (hevents e he), hartifacts.of_grows hgrows,
        hexecutions.of_grows hgrows⟩
  | _ => exact hkept.elim

/-! ## Every handler keeps to it -/

theorem meanwhile_getType (hE : Sound E) (r : Resource) (name : String) :
    MeanwhileOk E P (TypeKept r) (getType r name) s := by
  apply meanwhile_storeCall hE (.getType r.kind _) trivial
  · intro t type u _ _ heffect
    obtain ⟨hsame, hfind⟩ := hE.accepted (.getType r.kind _) t u type heffect
    obtain ⟨stored, hstored, rfl⟩ := Option.map_eq_some_iff.mp hfind
    exact ⟨stored, by rw [hsame]; exact Keyed.mem_of_find hstored, rfl, rfl, Extends.refl _⟩
  · exact fun type t u hgrows hkept => hkept.of_grows hgrows

theorem meanwhile_putType (hE : Sound E) (r : Resource) (opts : PutTypeOptions)
    (type : Option TypeRecord) : MeanwhileOk E P (TypeKept r) (putType r opts type) s := by
  cases type with
  | none => exact SafeOk.throw _ s
  | some type =>
      refine MeanwhileOk.bind (fun _ _ => True) ?_ fun _ t _ => meanwhile_getType hE r _
      exact meanwhile_storeCall hE (.putType r.kind type opts) trivial
        (fun _ _ _ _ _ _ => trivial) fun _ _ _ _ _ => trivial

theorem meanwhile_listTypes (hE : Sound E) (r : Resource) :
    MeanwhileOk E P (fun types t => ∀ type ∈ types, TypeKept r type t) (listTypes r) s := by
  apply meanwhile_storeCall hE (.getTypes r.kind) trivial
  · intro t types u _ _ heffect type htype
    obtain ⟨hsame, hperm⟩ := hE.accepted (.getTypes r.kind) t u types heffect
    obtain ⟨stored, hstored, rfl⟩ := List.mem_map.mp (hperm.mem_iff.mp htype)
    exact ⟨stored, by rw [hsame]; exact hstored, rfl, rfl, Extends.refl _⟩
  · exact fun types t u hgrows hkept type htype => (hkept type htype).of_grows hgrows

theorem meanwhile_onlyItem {r : Resource} {notSingle : String} {items : List (Item r.kind)}
    {post : Item r.kind → Store → Prop} (hpost : ∀ item, items = [item] → post item s)
    (hstable : ∀ item t, s.Grows t → post item s → post item t) :
    MeanwhileOk E P post (onlyItem r notSingle items) s := by
  unfold onlyItem
  split
  next item => exact MeanwhileOk.pure (hpost item rfl) (hstable item)
  next => exact SafeOk.throw _ s

/-- A record that is found by its id is stored under it. -/
theorem meanwhile_lookup (hE : Sound E) (r : Resource) (notSingle : String) (id : Int) :
    MeanwhileOk E P (fun item t => t.findItem r.kind id = some item)
      (storeCall (.getItemsByID r.kind [id]) >>= onlyItem r notSingle) s := by
  refine MeanwhileOk.bind
    (fun items t => ∀ item, items = [item] → t.findItem r.kind id = some item) ?_
    fun items t hitems => meanwhile_onlyItem hitems fun _ _ hgrows hfind => hgrows.findItem hfind
  apply meanwhile_storeCall hE (.getItemsByID r.kind [id]) trivial
  · rintro t items u _ _ heffect item rfl
    have hdoc := hE.accepted (.getItemsByID r.kind [id]) t u [item] heffect
    have hfound := documented_getItemsByID t.wellFormed hdoc
    rw [Store.findItem, hdoc.1]
    exact Option.toList_eq_singleton_iff.mp hfound.symm
  · exact fun items t u hgrows hitems item hsingle => hgrows.findItem (hitems item hsingle)

theorem mem_of_findItem {k : Kind} {id : Int} {x : Item k} (hfind : s.findItem k id = some x) :
    x ∈ s.contents.items k := Keyed.mem_of_find hfind

theorem meanwhile_ofResult {result : Except GoError α} {post : α → Store → Prop}
    (hpost : ∀ a t, result = .ok a → post a t) : MeanwhileOk E P post (ofResult result) s :=
  safe_ofResult fun a t ha _ _ => hpost a t ha

/-- What is read under a name is stored under the id in the name. -/
theorem meanwhile_getStored (hE : Sound E) (r : Resource) (name : String) :
    MeanwhileOk E P
      (fun item t => ∃ id, parseInstanceName r name = .ok id ∧ t.findItem r.kind id = some item)
      (getStored r name) s := by
  refine MeanwhileOk.bind (fun id _ => parseInstanceName r name = .ok id)
    (meanwhile_ofResult fun _ _ => id) fun id t hparse => ?_
  exact (meanwhile_lookup hE r _ id).mono fun _ _ _ hfind item hitem =>
    ⟨id, hparse, hfind item hitem⟩

theorem meanwhile_createItem (hE : Sound E) (r : Resource) (parent : String)
    (item : Option (Item r.kind)) :
    MeanwhileOk E P (fun item t => item ∈ t.contents.items r.kind) (createItem r parent item)
      s := by
  cases item with
  | none => exact SafeOk.throw _ s
  | some item =>
      simp only [createItem]
      split
      next => exact SafeOk.throw _ s
      next hid =>
        have hnew : item.id = none := by simpa using hid
        refine MeanwhileOk.bind (fun _ _ => True)
          ((meanwhile_wrapError (meanwhile_getType hE r parent)).mono fun _ _ _ _ _ _ => trivial)
          fun type t _ => ?_
        refine MeanwhileOk.bind (fun _ _ => True) ?_ fun ids u _ => ?_
        · refine meanwhile_storeCall hE (.putItems r.kind [_]) ?_ (fun _ _ _ _ _ _ => trivial)
            fun _ _ _ _ _ => trivial
          intro x hx
          rw [List.mem_singleton.mp hx]
          exact hnew
        · split
          next id =>
            exact (meanwhile_getStored hE r _).mono fun _ v _ hstored item hitem => by
              obtain ⟨_, _, hfind⟩ := hstored item hitem
              exact mem_of_findItem hfind
          next => exact SafeOk.throw _ u

/-- A listing has nothing that is not stored among what it asks for. -/
theorem meanwhile_listItems (hE : Sound E) (r : Resource) (name : String) :
    MeanwhileOk E P (fun items t => items.Subperm (asked r name t.contents)) (listItems r name)
      s := by
  have hlookup : Meanwhile E P (fun reply t => ∀ items, reply = .ok items →
      items.Subperm (asked r name t.contents))
      (if name = "" then call (.getItems r.kind)
        else call (.getItemsByType r.kind (Text.trimPrefix name r.typesCollection))) s := by
    have hstable : ∀ (reply : Except String (List (Item r.kind))) (t u : Store), t.Grows u →
        (∀ items, reply = .ok items → items.Subperm (asked r name t.contents)) →
          ∀ items, reply = .ok items → items.Subperm (asked r name u.contents) :=
      fun reply t u hgrows hasked items hitems =>
        (hasked items hitems).trans (asked_of_grows hgrows).subperm
    split
    next hname =>
      refine meanwhile_call hE (.getItems r.kind) trivial ?_ hstable
      rintro t reply u _ _ heffect items rfl
      obtain ⟨hsame, hperm⟩ := hE.accepted (.getItems r.kind) t u items heffect
      rw [asked, if_pos hname, hsame]
      exact hperm.subperm
    next hname =>
      refine meanwhile_call hE (.getItemsByType r.kind _) trivial ?_ hstable
      rintro t reply u _ _ heffect items rfl
      obtain ⟨hsame, hperm⟩ := hE.accepted (.getItemsByType r.kind _) t u items heffect
      rw [asked, if_neg hname, hsame]
      exact hperm.subperm
  refine Safe.bind _ grows_refl grows_trans hlookup fun reply t hinv hreply => ?_
  cases reply with
  | ok items =>
      intro u htu hinv' a ha
      obtain rfl := Except.ok.inj ha
      exact hreply u htu hinv' items rfl
  | error message =>
      dsimp only
      split
      next =>
        intro u _ _ a ha
        obtain rfl := Except.ok.inj ha
        exact List.nil_subperm
      next =>
        intro u _ _ a ha
        cases ha

theorem meanwhile_createEvent (hE : Sound E) (event : Option Event) :
    MeanwhileOk E P (Kept (.createEvent event)) (createEvent event) s := by
  refine meanwhile_storeCall hE (.putEvents [event]) trivial ?_
    fun response t u hgrows hkept => Kept.of_grows hkept hgrows
  intro t result u _ _ heffect
  obtain ⟨now, stored, hevents, -, hadded⟩ := hE.accepted (.putEvents [event]) t u result heffect
  cases stored with
  | nil => cases hevents
  | cons e rest =>
      obtain ⟨hevent, -⟩ := List.cons.inj hevents
      refine ⟨e, now, hevent, ?_⟩
      rw [hadded]
      exact List.mem_append_right _ List.mem_cons_self

/-- The records of events are those stored under the ids, whenever they are looked up. -/
theorem meanwhile_getInEvents (hE : Sound E) (r : Resource) (notSingle : String)
    (idOf : Event → Int) {events : List Event} {found : Finmap fun _ : Int => Item r.kind}
    (hfound : ∀ id x, found.lookup id = some x → s.findItem r.kind id = some x) :
    MeanwhileOk E P (fun records t =>
        (∀ id, id ∈ records ↔ id ∈ found ∨ id ∈ events.map idOf) ∧
          ∀ id x, records.lookup id = some x → t.findItem r.kind id = some x)
      (getInEvents r notSingle idOf events found) s := by
  induction events generalizing found s with
  | nil =>
      apply MeanwhileOk.pure
      · exact ⟨by simp, hfound⟩
      · exact fun t hgrows hpost =>
          ⟨hpost.1, fun id x hx => hgrows.findItem (hpost.2 id x hx)⟩
  | cons e events ih =>
      rw [getInEvents]
      split
      next hmem =>
        refine (ih hfound).mono fun _ t _ hpost records hrecords => ?_
        obtain ⟨hkeys, hstored⟩ := hpost records hrecords
        refine ⟨fun id => ?_, hstored⟩
        rw [hkeys, List.map_cons, List.mem_cons]
        apply Iff.intro
        · exact fun h => h.imp_right Or.inr
        · rintro (h | rfl | h)
          · exact Or.inl h
          · exact Or.inl hmem
          · exact Or.inr h
      next hmem =>
        rw [← LawfulMonad.bind_assoc]
        refine MeanwhileOk.bind
          (fun item t => t.findItem r.kind (idOf e) = some item ∧
            ∀ id x, found.lookup id = some x → t.findItem r.kind id = some x)
          (SafeOk.frame (fun _ _ hkept hgrows id x hx => hgrows.findItem (hkept id x hx))
            (fun _ _ hkept hadds id x hx => hadds.1.findItem (hkept id x hx)) hfound
            (meanwhile_lookup hE r notSingle (idOf e))) fun item t hmid => ?_
        have hinserted : ∀ id x, (found.insert (idOf e) item).lookup id = some x →
            t.findItem r.kind id = some x := by
          intro id x hx
          by_cases hid : id = idOf e
          · subst hid
            rw [Finmap.lookup_insert] at hx
            obtain rfl := Option.some.inj hx
            exact hmid.1
          · rw [Finmap.lookup_insert_of_ne _ hid] at hx
            exact hmid.2 id x hx
        refine (ih hinserted).mono fun _ u _ hpost records hrecords => ?_
        obtain ⟨hkeys, hstored⟩ := hpost records hrecords
        refine ⟨fun id => ?_, hstored⟩
        rw [hkeys, Finmap.mem_insert, List.map_cons, List.mem_cons, or_assoc, or_left_comm]

/-- The events under a name are stored ones, none if the lookup fails. -/
theorem meanwhile_eventsOrNone (hE : Sound E) (op : Call) (hread : op.IsRead)
    (events : op.Result → List Event)
    (hevents : ∀ c d result, Documented op c result d → ∀ e ∈ events result, e ∈ c.events) :
    MeanwhileOk E P (fun found t => ∀ e ∈ found, e ∈ t.contents.events) (eventsOrNone op events)
      s := by
  have hcall : Meanwhile E P (fun reply t => ∀ result, reply = .ok result →
      ∀ e ∈ events result, e ∈ t.contents.events) (call op) s := by
    apply meanwhile_call hE op (inserts_of_isRead hread)
    · rintro t reply u _ _ heffect result rfl e he
      rw [hE.read hread heffect]
      exact hevents _ _ result (hE.accepted op t u result heffect) e he
    · exact fun reply t u hgrows hreply result hresult e he =>
        hgrows.events.subset (hreply result hresult e he)
  refine Safe.bind _ grows_refl grows_trans hcall fun reply t hinv hreply => ?_
  cases reply with
  | ok result =>
      intro u htu hinv' found hfound
      obtain rfl := Except.ok.inj hfound
      exact hreply u htu hinv' result rfl
  | error message =>
      intro u _ _ found hfound
      obtain rfl := Except.ok.inj hfound
      simp

theorem meanwhile_namedEvents (hE : Sound E) (name : String) :
    MeanwhileOk E P (fun events t => ∀ e ∈ events, e ∈ t.contents.events) (namedEvents name)
      s := by
  unfold namedEvents
  split
  next =>
    refine MeanwhileOk.bind (fun _ _ => True) (meanwhile_ofResult fun _ _ _ => trivial)
      fun id t _ => meanwhile_eventsOrNone hE (.getEventsByArtifactIDs [id]) trivial _ ?_
    exact fun c d result hdoc e he => (List.mem_filter.mp (hdoc.2.mem_iff.mp he)).1
  next =>
    refine MeanwhileOk.bind (fun _ _ => True) (meanwhile_ofResult fun _ _ _ => trivial)
      fun id t _ => meanwhile_eventsOrNone hE (.getEventsByExecutionIDs [id]) trivial _ ?_
    exact fun c d result hdoc e he => (List.mem_filter.mp (hdoc.2.mem_iff.mp he)).1

/-- The events of a list are those that were looked up first, whatever is known of them. -/
theorem meanwhile_listEvents_of (hE : Sound E) {name : String} {Q : List Event → Prop}
    (hnamed : MeanwhileOk E P (fun events t => Q events ∧ ∀ e ∈ events, e ∈ t.contents.events)
      (namedEvents name) s) :
    MeanwhileOk E P (fun list t => Q list.events ∧ Kept (.listEvents name) list t)
      (listEvents name) s := by
  have hempty (r : Resource) (t : Store) : ∀ id x,
      (∅ : Finmap fun _ : Int => Item r.kind).lookup id = some x →
        t.findItem r.kind id = some x := by
    intro id x hx
    rw [Finmap.lookup_empty] at hx
    cases hx
  have hstored (events : List Event) (t u : Store)
      (hevents : ∀ e ∈ events, e ∈ t.contents.events) (hgrows : t.Grows u) :
      ∀ e ∈ events, e ∈ u.contents.events := fun e he => hgrows.events.subset (hevents e he)
  have hjoined (r : Resource) (notSingle : String) (idOf : Event → Int) (events : List Event)
      (t : Store) : MeanwhileOk E P (Joined r idOf events)
        (getInEvents r notSingle idOf events ∅) t :=
    (meanwhile_getInEvents hE r notSingle idOf (hempty r t)).mono
      fun _ _ _ hpost records hrecords =>
        ⟨fun id => ((hpost records hrecords).1 id).trans (or_iff_right Finmap.notMem_empty),
          (hpost records hrecords).2⟩
  refine MeanwhileOk.bind _ hnamed fun events t hfound => ?_
  obtain ⟨hQ, hevents⟩ := hfound
  refine MeanwhileOk.bind _ (SafeOk.frame (fun _ _ hkept hgrows => hstored events _ _ hkept hgrows)
    (fun _ _ hkept hadds => hstored events _ _ hkept hadds.1) hevents
    (meanwhile_wrapError (hjoined .artifact _ _ events t))) fun artifacts u hartifacts => ?_
  refine MeanwhileOk.bind _ (SafeOk.frame
    (P := fun v => Joined .artifact (fun e => e.artifactId.getD 0) events artifacts v ∧
      ∀ e ∈ events, e ∈ v.contents.events)
    (fun v w hkept hgrows => ⟨hkept.1.of_grows hgrows, hstored events v w hkept.2 hgrows⟩)
    (fun v w hkept hadds => ⟨hkept.1.of_grows hadds.1, hstored events v w hkept.2 hadds.1⟩)
    hartifacts (meanwhile_wrapError (hjoined .execution _ _ events u)))
    fun executions v hexecutions => ?_
  apply MeanwhileOk.pure
  · exact ⟨hQ, hexecutions.2.2, hexecutions.2.1, hexecutions.1⟩
  · exact fun w hgrows hkept => ⟨hkept.1, Kept.of_grows hkept.2 hgrows⟩

theorem meanwhile_listEvents (hE : Sound E) (name : String) :
    MeanwhileOk E P (Kept (.listEvents name)) (listEvents name) s := by
  have hnamed : MeanwhileOk E P (fun events t => True ∧ ∀ e ∈ events, e ∈ t.contents.events)
      (namedEvents name) s :=
    (meanwhile_namedEvents hE name).mono fun _ _ _ hpost events hevents =>
      ⟨trivial, hpost events hevents⟩
  exact (meanwhile_listEvents_of hE (Q := fun _ => True) hnamed).mono
    fun _ _ _ hpost list hlist => (hpost list hlist).2

/-- What any handler answers is stored. -/
theorem meanwhile_handle (hE : Sound E) (request : Request) :
    MeanwhileOk E P (Kept request) (handle request) s := by
  cases request with
  | createArtifactType type => exact meanwhile_putType hE .artifact _ type
  | updateArtifactType type => exact meanwhile_putType hE .artifact _ type
  | getArtifactType name => exact meanwhile_getType hE .artifact name
  | listArtifactTypes => exact meanwhile_listTypes hE .artifact
  | createArtifact parent artifact => exact meanwhile_createItem hE .artifact parent artifact
  | getArtifact name =>
      exact (meanwhile_getStored hE .artifact name).mono fun _ _ _ hstored item hitem => by
        obtain ⟨_, _, hfind⟩ := hstored item hitem
        exact mem_of_findItem hfind
  | listArtifacts name => exact meanwhile_listItems hE .artifact name
  | createExecutionType type => exact meanwhile_putType hE .execution _ type
  | updateExecutionType type => exact meanwhile_putType hE .execution _ type
  | getExecutionType name => exact meanwhile_getType hE .execution name
  | listExecutionTypes => exact meanwhile_listTypes hE .execution
  | createExecution parent execution =>
      exact meanwhile_createItem hE .execution parent execution
  | getExecution name =>
      exact (meanwhile_getStored hE .execution name).mono fun _ _ _ hstored item hitem => by
        obtain ⟨_, _, hfind⟩ := hstored item hitem
        exact mem_of_findItem hfind
  | listExecutions name => exact meanwhile_listItems hE .execution name
  | createEvent event => exact meanwhile_createEvent hE event
  | listEvents name => exact meanwhile_listEvents hE name
  | deleteArtifactType name => exact SafeOk.throw _ s
  | deleteArtifact name => exact SafeOk.throw _ s
  | deleteExecutionType name => exact SafeOk.throw _ s
  | deleteExecution name => exact SafeOk.throw _ s

/-! ## Runs -/

/-- All clients add to the store while `P` holds, and answer what `post` says. -/
def keeping {ι : Type} (P : Store → Prop)
    (post : ι → (request : Request) → Except GoError request.Response → Store → Prop) :
    Clients.Outline Store ι Unit Request Answer where
  inv s := s.contents.Consistent ∧ P s
  guar _ := Adds
  rely _ := Store.Grows
  knows _ _ _ := True
  post i _ request answer s := ∃ reply, answer = ⟨request, reply⟩ ∧ post i request reply s

variable {ι : Type}
  {post : ι → (request : Request) → Except GoError request.Response → Store → Prop}

theorem keeping_valid (hP : ∀ s t, s.Grows t → P s → P t)
    (hhandle : ∀ i request s, Meanwhile E P (post i request) (handle request).run s) :
    (keeping P post).Valid (clients ι) E noEnvironment where
  rely_refl _ := grows_refl
  rely_trans _ := grows_trans
  guar_inv _ s t hinv hadds := ⟨hadds.2 hinv.1, hP s t hadds.1 hinv.2⟩
  guar_rely _ _ _ _ _ _ hadds := hadds.1
  env_inv _ _ _ henv := henv.elim
  env_rely _ _ _ _ henv := henv.elim
  knows_stable _ _ _ _ _ _ := trivial
  body_safe i _ request s _ _ _ :=
    Safe.map grows_refl grows_trans
      ((hhandle i request s).mono fun reply _ _ hpost => ⟨reply, rfl, hpost⟩)
  resume_knows _ _ _ _ _ _ _ := trivial

/-- Every client answers what is stored. -/
def answering (ι : Type) : Clients.Outline Store ι Unit Request Answer :=
  keeping (fun _ => True) fun _ request reply s =>
    ∀ response, reply = .ok response → Kept request response s

theorem answering_valid (hE : Sound E) (ι : Type) :
    (answering ι).Valid (clients ι) E noEnvironment :=
  keeping_valid (fun _ _ _ _ => trivial) fun _ request _ => meanwhile_handle hE request

variable [DecidableEq ι] {c d : Config api Store ι Unit Request Answer}

theorem answering_holds (hE : Sound E)
    (hreached : (clients ι).Steps E noEnvironment (start ι) c) : (answering ι).Holds E c :=
  Clients.Steps.holds (answering_valid hE ι) hreached
    ⟨⟨consistent_empty, trivial⟩, fun _ => trivial⟩

theorem grows_of_steps (hE : Sound E) (hreached : (clients ι).Steps E noEnvironment (start ι) c)
    (hlater : (clients ι).Steps E noEnvironment c d) : c.state.Grows d.state :=
  (consistent_of_steps hE ι hreached hlater).2

/-- **Answers stay true.** -/
theorem kept_of_answered (hE : Sound E)
    (hreached : (clients ι).Steps E noEnvironment (start ι) c)
    (hlater : (clients ι).Steps E noEnvironment c d) {i : ι} {memory : Unit} {job request : Request}
    {response : request.Response}
    (hphase : c.phase i = .busy memory job (.done ⟨request, .ok response⟩)) :
    Kept request response d.state := by
  obtain ⟨reply, hanswer, hkept⟩ := (answering_holds hE hreached).post (answering_valid hE ι) hphase
  cases hanswer
  exact (hkept response rfl).of_grows (grows_of_steps hE hreached hlater)

/-! ## Records in answers -/

/-- The answer to the request contains the record. -/
def Mentions : (request : Request) → request.Response → (r : Resource) → Item r.kind → Prop
  | .createArtifact _ _, artifact, .artifact, x => x = artifact
  | .getArtifact _, artifact, .artifact, x => x = artifact
  | .listArtifacts _, artifacts, .artifact, x => x ∈ artifacts
  | .createExecution _ _, execution, .execution, x => x = execution
  | .getExecution _, execution, .execution, x => x = execution
  | .listExecutions _, executions, .execution, x => x ∈ executions
  | .listEvents _, list, .artifact, x => ∃ id, list.artifacts.lookup id = some x
  | .listEvents _, list, .execution, x => ∃ id, list.executions.lookup id = some x
  | _, _, _, _ => False

/-- A record that a listing asks for is stored. -/
theorem mem_of_asked {r : Resource} {name : String} {x : Item r.kind}
    (hx : x ∈ asked r name s.contents) : x ∈ s.contents.items r.kind := by
  unfold asked at hx
  split at hx
  next => exact hx
  next =>
    rw [Contents.itemsOfType] at hx
    split at hx
    next => cases hx
    next => exact List.mem_of_mem_filter hx

/-- A record in an answer that is kept is stored. -/
theorem Kept.stored {request : Request} {response : request.Response} {r : Resource}
    {x : Item r.kind} (hkept : Kept request response s)
    (hmentions : Mentions request response r x) : x ∈ s.contents.items r.kind := by
  cases request with
  | createArtifact parent artifact =>
      cases r with
      | artifact => exact hmentions ▸ hkept
      | execution => exact hmentions.elim
  | getArtifact name =>
      cases r with
      | artifact => exact hmentions ▸ hkept
      | execution => exact hmentions.elim
  | listArtifacts name =>
      cases r with
      | artifact => exact mem_of_asked (hkept.subset hmentions)
      | execution => exact hmentions.elim
  | createExecution parent execution =>
      cases r with
      | artifact => exact hmentions.elim
      | execution => exact hmentions ▸ hkept
  | getExecution name =>
      cases r with
      | artifact => exact hmentions.elim
      | execution => exact hmentions ▸ hkept
  | listExecutions name =>
      cases r with
      | artifact => exact hmentions.elim
      | execution => exact mem_of_asked (hkept.subset hmentions)
  | listEvents name =>
      cases r with
      | artifact =>
          obtain ⟨id, hx⟩ := hmentions
          exact mem_of_findItem (hkept.2.1.stored id x hx)
      | execution =>
          obtain ⟨id, hx⟩ := hmentions
          exact mem_of_findItem (hkept.2.2.stored id x hx)
  | _ => cases r <;> exact hmentions.elim

/-- **Answers agree.** However the calls of any number of clients are interleaved, and
whichever of them fail before or after their effect, two answers never contain different
records of one id, an earlier and a later one, of the same client or of different ones. -/
theorem answers_agree (hE : Sound E) (hreached : (clients ι).Steps E noEnvironment (start ι) c)
    (hlater : (clients ι).Steps E noEnvironment c d) {i j : ι} {memory memory' : Unit}
    {job job' request request' : Request} {response : request.Response}
    {response' : request'.Response}
    (hfirst : c.phase i = .busy memory job (.done ⟨request, .ok response⟩))
    (hsecond : d.phase j = .busy memory' job' (.done ⟨request', .ok response'⟩))
    {r : Resource} {x y : Item r.kind} (hx : Mentions request response r x)
    (hy : Mentions request' response' r y) (hid : x.id = y.id) : x = y := by
  have hxstored := (kept_of_answered hE hreached hlater hfirst).stored hx
  have hystored := (kept_of_answered hE (hreached.trans hlater) .refl hsecond).stored hy
  exact List.inj_on_of_nodup_map (d.state.wellFormed.itemIds r.kind) hxstored hystored hid

/-! ## One request after another -/

def getM : Request := .getArtifact "artifact_types/m/artifacts/1"

def artifactM : Artifact := ⟨some 1, some 1, ∅, ∅, none⟩

/-- A client has created a type, and another one an artifact of it. -/
def createdM : Config api Store Nat Unit Request Answer :=
  answered (answered (start Nat) 0 createTypeM) 1 createM

theorem steps_createdM : (clients Nat).Steps inMemory.effect noEnvironment (start Nat) createdM :=
  (steps_answered (start Nat) rfl createTypeM).trans (steps_answered _ rfl createM)

/-- The artifact that a third client reads is the one that was created. -/
theorem answers_agree_created : ∃ x y : Artifact,
    createdM.phase 1 = .busy () createM (.done ⟨createM, .ok x⟩) ∧
      (answered createdM 2 getM).phase 2 = .busy () getM (.done ⟨getM, .ok y⟩) ∧ x = y := by
  have hcreated : createdM.phase 1 = .busy () createM (.done ⟨createM, .ok artifactM⟩) := rfl
  have hgot : (answered createdM 2 getM).phase 2 =
    .busy () getM (.done ⟨getM, .ok artifactM⟩) := rfl
  have hmentions : Mentions createM artifactM .artifact artifactM := rfl
  have hmentions' : Mentions getM artifactM .artifact artifactM := rfl
  exact ⟨artifactM, artifactM, hcreated, hgot,
    answers_agree inMemory_available.toLawful.sound steps_createdM
      (steps_answered createdM rfl getM) hcreated hgot hmentions hmentions' rfl⟩

end KfMetadata.Service
