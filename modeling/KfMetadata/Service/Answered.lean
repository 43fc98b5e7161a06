/-
# Lists are answered

The list of the events of an artifact looks up one record after another, while other
requests add to the store. For each id it expects exactly one record, and reports anything
else as an internal error. This never happens at a store that refuses only what it must:
both ends of an event are stored before it is, and stay stored. So no list is refused, of
types, of records or of events, unless there is no id in the name of the events.
-/

import KfMetadata.Mlmd.Obliging
import KfMetadata.Service.LaterRequests

namespace KfMetadata.Service

open Mlmd Remote Remote.Program

variable {E : Effect api Store} {P : Store → Prop} {s t : Store} {α β : Type}

/-! ## Programs that raise nothing -/

/-- Between its calls others add to the store, as before, and it ends without an error. -/
abbrev Answered (E : Effect api Store) (P : Store → Prop) (post : α → Store → Prop)
    (x : Handler α) (s : Store) : Prop :=
  Meanwhile E P (fun reply t => ∃ a, reply = .ok a ∧ post a t) x.run s

theorem Answered.bind (mid : α → Store → Prop) {post : β → Store → Prop} {x : Handler α}
    {f : α → Handler β} (hfirst : Answered E P mid x s)
    (hrest : ∀ a t, t.contents.Consistent → mid a t → Answered E P post (f a) t) :
    Answered E P post (x >>= f) s := by
  refine Safe.bind _ grows_refl grows_trans hfirst fun reply t hinv hreply => ?_
  obtain ⟨a, rfl, ha⟩ := hreply t (grows_refl t) hinv
  exact hrest a t hinv.1 ha

theorem Answered.pure {post : α → Store → Prop} {a : α} (hpost : ∀ t, s.Grows t → post a t) :
    Answered E P post (Pure.pure a : Handler α) s :=
  Safe.pure fun t hst _ => ⟨a, rfl, hpost t hst⟩

/-- The store has grown by the end. -/
theorem Answered.grown {post : α → Store → Prop} {x : Handler α} (hx : Answered E P post x s) :
    Answered E P (fun a t => post a t ∧ s.Grows t) x s := by
  have hframed := Safe.frame (P := fun t => s.Grows t) (fun _ _ => grows_trans _ _ _)
    (fun _ _ hst hadds => grows_trans _ _ _ hst hadds.1) (grows_refl s) hx
  refine hframed.mono fun reply t _ hreply => ?_
  obtain ⟨⟨a, hok, ha⟩, hst⟩ := hreply
  exact ⟨a, hok, ha, hst⟩

/-- What is said of a result holds if there is one. -/
theorem Answered.of_ok {post : α → Store → Prop} {x : Handler α}
    (hok : MeanwhileOk E P post x s) (hx : Answered E P (fun _ _ => True) x s) :
    Answered E P post x s := by
  refine (Safe.and hok hx).weaken (fun _ h => h) (fun _ _ h => h) (fun _ _ h => h.1) ?_
  rintro reply t - ⟨hpost, a, rfl, -⟩
  exact ⟨a, rfl, hpost a rfl⟩

theorem answered_wrapError {format : String} {args : List Arg} {x : Handler α}
    {post : α → Store → Prop} (hx : Answered E P post x s) :
    Answered E P post (wrapError format args x) s := by
  refine Safe.bind _ grows_refl grows_trans hx fun reply t hinv hreply => ?_
  obtain ⟨a, rfl, -⟩ := hreply t (grows_refl t) hinv
  exact Safe.pure hreply

/-! ## Calls that are not refused -/

section Calls

variable (hE : Obliging E)
include hE

/-- A call is answered if it has a documented outcome in whatever state it meets. -/
theorem answered_storeCall (op : Call) (hinserts : op.Inserts)
    (houtcome : ∀ t, t.contents.Consistent → P t →
      ∃ result, ∃ u : Store, Documented op t.contents result u.contents) :
    Answered E P (fun _ _ => True) (storeCall op) s := by
  intro t _ hinv reply u heffect
  refine ⟨⟨hE.toLawful.sound.grows hinserts heffect, hE.toLawful.sound.consistent heffect⟩,
    fun v _ _ => ?_⟩
  cases reply with
  | ok result => exact ⟨result, rfl, trivial⟩
  | error message =>
      obtain ⟨result, w, hdoc⟩ := houtcome t hinv.1 hinv.2
      exact (hE.refuses op t u message heffect result w hdoc).elim

theorem answered_listTypes (r : Resource) : Answered E P (fun _ _ => True) (listTypes r) s :=
  answered_storeCall hE (.getTypes r.kind) trivial fun t _ _ => ⟨_, t, rfl, List.Perm.refl _⟩

/-- A listing is answered, and has every record that is among what it asks for. -/
theorem answered_listItems {r : Resource} {name : String} {Q : Item r.kind → Prop}
    (hQ : ∀ t, P t → ∀ x, Q x → x ∈ asked r name t.contents) :
    Answered E P (fun items _ => ∀ x, Q x → x ∈ items) (listItems r name) s := by
  have hlookup : Meanwhile E P
      (fun reply _ => ∃ items, reply = .ok items ∧ ∀ x, Q x → x ∈ items)
      (if name = "" then call (.getItems r.kind)
        else call (.getItemsByType r.kind (Text.trimPrefix name r.typesCollection))) s := by
    have hstable : ∀ (reply : Except String (List (Item r.kind))) (t u : Store), t.Grows u →
        (∃ items, reply = .ok items ∧ ∀ x, Q x → x ∈ items) →
          ∃ items, reply = .ok items ∧ ∀ x, Q x → x ∈ items := fun _ _ _ _ => id
    split
    next hname =>
      refine meanwhile_call hE.toLawful.sound (.getItems r.kind) trivial ?_ hstable
      intro t reply u _ hP heffect
      cases reply with
      | error message =>
          exact (hE.refuses (.getItems r.kind) t u message heffect _ t
            ⟨rfl, List.Perm.refl _⟩).elim
      | ok items =>
          have hdoc := hE.accepted (.getItems r.kind) t u items heffect
          refine ⟨items, rfl, fun x hx => hdoc.2.mem_iff.mpr ?_⟩
          have hasked := hQ t hP x hx
          rwa [asked, if_pos hname] at hasked
    next hname =>
      refine meanwhile_call hE.toLawful.sound (.getItemsByType r.kind _) trivial ?_ hstable
      intro t reply u _ hP heffect
      cases reply with
      | error message =>
          exact (hE.refuses (.getItemsByType r.kind _) t u message heffect _ t
            ⟨rfl, List.Perm.refl _⟩).elim
      | ok items =>
          have hdoc := hE.accepted (.getItemsByType r.kind _) t u items heffect
          refine ⟨items, rfl, fun x hx => hdoc.2.mem_iff.mpr ?_⟩
          have hasked := hQ t hP x hx
          rwa [asked, if_neg hname] at hasked
  refine Safe.bind _ grows_refl grows_trans hlookup fun reply t hinv hreply => ?_
  obtain ⟨items, rfl, hitems⟩ := hreply t (grows_refl t) hinv
  exact Safe.pure fun _ _ _ => ⟨items, rfl, hitems⟩

/-! ## Events and their ends -/

/-- A stored record is the only one of its id. -/
theorem answered_lookup {r : Resource} {notSingle : String} {id : Int} {x : Item r.kind}
    (hstored : s.findItem r.kind id = some x) :
    Answered E P (fun item _ => item = x)
      (storeCall (.getItemsByID r.kind [id]) >>= onlyItem r notSingle) s := by
  have hcall : Answered E P (fun items _ => items = [x])
      (storeCall (.getItemsByID r.kind [id])) s := by
    intro t hst _ reply u heffect
    have hinserts : Call.Inserts (.getItemsByID r.kind [id]) := trivial
    obtain ⟨-, rfl⟩ := hE.getItemsByID (hst.findItem hstored) heffect
    exact ⟨⟨hE.toLawful.sound.grows hinserts heffect, hE.toLawful.sound.consistent heffect⟩,
      fun _ _ _ => ⟨[x], rfl, rfl⟩⟩
  refine Answered.bind _ hcall fun items t _ hitems => ?_
  subst hitems
  exact Answered.pure fun _ _ => rfl

/-- The records of events are found if they are stored. -/
theorem answered_getInEvents (r : Resource) (notSingle : String) (idOf : Event → Int)
    {events : List Event} {found : Finmap fun _ : Int => Item r.kind}
    (hstored : ∀ e ∈ events, ∃ x, s.findItem r.kind (idOf e) = some x) :
    Answered E P (fun _ _ => True) (getInEvents r notSingle idOf events found) s := by
  induction events generalizing found s with
  | nil => exact Answered.pure fun _ _ => trivial
  | cons e events ih =>
      obtain ⟨x, hx⟩ := hstored e List.mem_cons_self
      have hlater := fun e' he' => hstored e' (List.mem_cons_of_mem e he')
      rw [getInEvents]
      split
      next => exact ih hlater
      next =>
        rw [← LawfulMonad.bind_assoc]
        refine Answered.bind _ (Answered.grown (answered_lookup hE hx)) fun item t _ hitem => ?_
        refine ih fun e' he' => ?_
        obtain ⟨y, hy⟩ := hlater e' he'
        exact ⟨y, hitem.2.findItem hy⟩

omit hE in
/-- Both ends of a stored event are stored. -/
theorem exists_end (hs : s.contents.Consistent) {e : Event} (he : e ∈ s.contents.events) :
    (∃ x, s.findItem .artifact (e.artifactId.getD 0) = some x) ∧
      ∃ x, s.findItem .execution (e.executionId.getD 0) = some x := by
  have hfind : ∀ k id, Present s.contents k id → ∃ x, s.findItem k id = some x := by
    rintro k id ⟨x, hx, hid⟩
    exact ⟨x, (Keyed.find_eq_some_iff (s.wellFormed.itemIds k)).mpr ⟨hx, hid⟩⟩
  obtain ⟨⟨aid, haid, hartifact⟩, ⟨eid, heid, hexecution⟩⟩ := hs.linked e he
  rw [haid, heid]
  exact ⟨hfind .artifact aid hartifact, hfind .execution eid hexecution⟩

omit hE in
/-- An error of the lookup is passed over. -/
theorem answered_eventsOrNone (hE : Sound E) (op : Call) (hread : op.IsRead)
    (events : op.Result → List Event) :
    Answered E P (fun _ _ => True) (eventsOrNone op events) s := by
  have hcall : Meanwhile E P (fun _ _ => True) (call op) s :=
    meanwhile_call hE op (inserts_of_isRead hread) (fun _ _ _ _ _ _ => trivial)
      fun _ _ _ _ => id
  refine Safe.bind _ grows_refl grows_trans hcall fun reply t _ _ => ?_
  cases reply with
  | ok result => exact Safe.pure fun _ _ _ => ⟨_, rfl, trivial⟩
  | error message => exact Safe.pure fun _ _ _ => ⟨_, rfl, trivial⟩

/-- The id in the name of an event list. -/
def eventsId (name : String) : Except GoError Int :=
  if Text.hasPrefix name artifactCollection then parseEventsName name artifactCollection
  else parseEventsName name executionCollection

omit hE in
theorem eventsId_eventsName (r : Resource) {id : Int} (hid : IsId id) :
    eventsId (eventsName r id) = .ok id := by
  have hparse := parseEventsName_eventsName r hid
  unfold eventsId
  cases r with
  | artifact => rwa [if_pos ((hasPrefix_eventsName .artifact id).mpr rfl)]
  | execution => rwa [if_neg (by simp [hasPrefix_eventsName])]

omit hE in
theorem answered_namedEvents (hE : Sound E) {name : String} {id : Int}
    (hid : eventsId name = .ok id) :
    Answered E P (fun events t => ∀ e ∈ events, e ∈ t.contents.events) (namedEvents name) s := by
  refine Answered.of_ok (meanwhile_namedEvents hE name) ?_
  unfold eventsId at hid
  unfold namedEvents
  split at hid
  next hprefix =>
    rw [if_pos hprefix, hid]
    exact answered_eventsOrNone hE (.getEventsByArtifactIDs [id]) trivial _
  next hprefix =>
    rw [if_neg hprefix, hid]
    exact answered_eventsOrNone hE (.getEventsByExecutionIDs [id]) trivial _

/-- The events under a name are listed, if there is an id in it. -/
theorem answered_listEvents {name : String} {id : Int} (hid : eventsId name = .ok id) :
    Answered E P (fun _ _ => True) (listEvents name) s := by
  have hsound := hE.toLawful.sound
  refine Answered.bind _ (answered_namedEvents hsound hid) fun events t ht hevents => ?_
  have hends := fun e he => exists_end ht (hevents e he)
  refine Answered.bind _ (Answered.grown (answered_wrapError
    (answered_getInEvents hE .artifact _ _ fun e he => (hends e he).1)))
    fun artifacts u _ hartifacts => ?_
  refine Answered.bind _ (answered_wrapError
    (answered_getInEvents hE .execution _ _ fun e he => ?_))
    fun executions v _ _ => Answered.pure fun _ _ => trivial
  obtain ⟨x, hx⟩ := (hends e he).2
  exact ⟨x, hartifacts.2.findItem hx⟩

end Calls

/-! ## List requests -/

/-- A request for a list. -/
def Request.IsList : Request → Prop
  | .listArtifactTypes => True
  | .listExecutionTypes => True
  | .listArtifacts _ => True
  | .listExecutions _ => True
  | .listEvents _ => True
  | _ => False

/-- The list is answered, or there is no id in the name of its events. -/
def ListEnds (request : Request) (reply : Except GoError request.Response) : Prop :=
  (∃ response, reply = .ok response) ∨
    ∃ name e, request = .listEvents name ∧ eventsId name = .error e ∧ reply = .error e

theorem meanwhile_list (hE : Obliging E) {request : Request} (hlist : request.IsList)
    (s : Store) : Meanwhile E P (fun reply _ => ListEnds request reply) (handle request).run s := by
  have hanswered : ∀ {post : request.Response → Store → Prop},
      Answered E P post (handle request) s →
        Meanwhile E P (fun reply _ => ListEnds request reply) (handle request).run s :=
    fun hrequest => hrequest.mono fun reply _ _ ⟨response, hok, _⟩ => Or.inl ⟨response, hok⟩
  cases request with
  | listArtifactTypes => exact hanswered (answered_listTypes hE .artifact)
  | listExecutionTypes => exact hanswered (answered_listTypes hE .execution)
  | listArtifacts name =>
      exact hanswered (answered_listItems (r := .artifact) hE (Q := fun _ => False)
        fun _ _ _ hfalse => hfalse.elim)
  | listExecutions name =>
      exact hanswered (answered_listItems (r := .execution) hE (Q := fun _ => False)
        fun _ _ _ hfalse => hfalse.elim)
  | listEvents name =>
      cases hid : eventsId name with
      | ok id => exact hanswered (answered_listEvents hE hid)
      | error e =>
          have hnamed : namedEvents name = throw e := by
            unfold eventsId at hid
            unfold namedEvents
            split at hid
            next hprefix =>
              rw [if_pos hprefix, hid]
              rfl
            next hprefix =>
              rw [if_neg hprefix, hid]
              rfl
          have hlistEvents : (handle (.listEvents name)).run = Pure.pure (.error e) := by
            show (listEvents name).run = _
            rw [listEvents, hnamed]
            rfl
          rw [hlistEvents]
          exact Safe.pure fun _ _ _ => Or.inr ⟨name, e, rfl, hid, rfl⟩
  | _ => exact hlist.elim

end KfMetadata.Service
