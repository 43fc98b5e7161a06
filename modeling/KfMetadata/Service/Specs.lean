/-
# What each handler does

One lemma for each way a handler can end, against a lawful or available store.
Later modules compose these and never look inside a handler again. The last
section bounds the calls that a handler issues, whatever the store replies.
-/

import KfMetadata.Service.Handlers

namespace KfMetadata.Service

open Mlmd Remote Remote.Program

variable {E : Effect api Store} {s t : Store}

/-! ## Lookups of one record -/

theorem onlyItem_singleton (r : Resource) (notSingle : String) (item : Item r.kind) :
    onlyItem r notSingle [item] = pure item := rfl

theorem onlyItem_nil (r : Resource) (notSingle : String) :
    onlyItem r notSingle [] = throw (.errorf notSingle [.items r.kind []]) := rfl

theorem runs_onlyItem_ok {r : Resource} {notSingle : String} {items : List (Item r.kind)}
    {item : Item r.kind} :
    (onlyItem r notSingle items).run.Runs E s (.ok item) t ↔ items = [item] ∧ s = t := by
  unfold onlyItem
  split
  · rename_i found
    rw [runs_run_pure]
    simp
  · rename_i hnot
    rw [runs_run_throw]
    apply Iff.intro
    · rintro ⟨herror, -⟩
      cases herror
    · rintro ⟨hsingle, -⟩
      exact absurd hsingle (hnot item)

/-! ## Types -/

theorem getType_ok (hE : Lawful E) {r : Resource} {name : String} {type : TypeRecord}
    (hrun : (getType r name).run.Runs E s (.ok type) t) :
    t = s ∧ ∃ stored, s.findType r.kind (Text.trimPrefix name r.typesCollection) = some stored ∧
      type = stored.toRecord := by
  rw [getType, runs_storeCall_ok (.getType r.kind _)] at hrun
  obtain ⟨hsame, hfind⟩ := hE.accepted (.getType r.kind _) s t type hrun
  obtain ⟨stored, hstored, htype⟩ := Option.map_eq_some_iff.mp hfind
  exact ⟨Store.ext hsame, stored, hstored, htype.symm⟩

theorem getType_error (hE : Lawful E) {r : Resource} {name : String} {e : GoError}
    (hrun : (getType r name).run.Runs E s (.error e) t) : t = s := by
  obtain ⟨message, -, hcall⟩ := (runs_storeCall_error (.getType _ _)).mp hrun
  exact hE.refused _ s t message hcall

/-- An available store fails to look up only types that it does not have. -/
theorem getType_error_of_available (hE : Available E) {r : Resource} {name : String}
    {e : GoError} (hrun : (getType r name).run.Runs E s (.error e) t) :
    t = s ∧ s.findType r.kind (Text.trimPrefix name r.typesCollection) = none := by
  obtain ⟨message, -, hcall⟩ := (runs_storeCall_error (.getType _ _)).mp hrun
  exact ⟨hE.refused _ s t message hcall, hE.getType_stored _ _ s t message hcall⟩

/-- Looking up a stored type in an available store succeeds. -/
theorem runs_getType_of_stored (hE : Available E) {r : Resource} {name : String}
    {stored : StoredType}
    (hstored : s.findType r.kind (Text.trimPrefix name r.typesCollection) = some stored) :
    (getType r name).run.Runs E s (.ok stored.toRecord) s := by
  obtain ⟨reply, t, hrun⟩ := exists_runs hE.responds (getType r name).run s
  cases reply with
  | error e =>
      obtain ⟨-, hnone⟩ := getType_error_of_available hE hrun
      rw [hstored] at hnone
      cases hnone
  | ok type =>
      obtain ⟨rfl, other, hother, rfl⟩ := getType_ok hE.toLawful hrun
      rw [hstored] at hother
      cases hother
      exact hrun

/-- A type that is not stored is not found. -/
theorem runs_getType_of_missing (hE : Available E) {r : Resource} {name : String}
    (hmissing : s.findType r.kind (Text.trimPrefix name r.typesCollection) = none) :
    ∃ e, (getType r name).run.Runs E s (.error e) s := by
  obtain ⟨reply, t, hrun⟩ := exists_runs hE.responds (getType r name).run s
  cases reply with
  | error e =>
      obtain ⟨rfl, -⟩ := getType_error_of_available hE hrun
      exact ⟨e, hrun⟩
  | ok type =>
      obtain ⟨-, other, hother, -⟩ := getType_ok hE.toLawful hrun
      rw [hmissing] at hother
      cases hother

/-- What a type handler may end in: refused, or stored and looked up. -/
theorem runs_putType {r : Resource} {opts : PutTypeOptions} {type : TypeRecord}
    {reply : Except GoError TypeRecord} :
    (putType r opts (some type)).run.Runs E s reply t ↔
      (∃ message, reply = .error (.text message) ∧
        E (.putType r.kind type opts) s (.error message) t) ∨
      ∃ id u, E (.putType r.kind type opts) s (.ok id) u ∧
        (getType r type.getName).run.Runs E u reply t := by
  simp only [putType, runs_run_bind, runs_storeCall_error (.putType r.kind type opts),
    runs_storeCall_ok (.putType r.kind type opts)]
  apply Iff.intro
  · rintro (⟨e, rfl, message, rfl, hcall⟩ | ⟨id, u, hput, hget⟩)
    · exact Or.inl ⟨message, rfl, hcall⟩
    · exact Or.inr ⟨id, u, hput, hget⟩
  · rintro (⟨message, rfl, hcall⟩ | ⟨id, u, hput, hget⟩)
    · exact Or.inl ⟨_, rfl, message, rfl, hcall⟩
    · exact Or.inr ⟨id, u, hput, hget⟩

/-! ## Records -/

/-- A record that is read is the stored one under the id in the name. -/
theorem getStored_ok (hE : Lawful E) {r : Resource} {name : String} {item : Item r.kind}
    (hrun : (getStored r name).run.Runs E s (.ok item) t) :
    t = s ∧ ∃ id, parseInstanceName r name = .ok id ∧ s.findItem r.kind id = some item := by
  simp only [getStored, runs_run_bind_ok, runs_ofResult, runs_onlyItem_ok] at hrun
  obtain ⟨id, u, ⟨hparse, rfl⟩, items, v, hcall, rfl, rfl⟩ := hrun
  rw [runs_storeCall_ok (.getItemsByID r.kind [id])] at hcall
  have hdoc := hE.accepted (.getItemsByID r.kind [id]) s v [item] hcall
  have hitems := documented_getItemsByID s.wellFormed hdoc
  refine ⟨Store.ext hdoc.1, id, hparse, ?_⟩
  rw [Store.findItem]
  cases hfind : s.contents.findItem r.kind id with
  | none =>
      rw [hfind] at hitems
      cases hitems
  | some found =>
      rw [hfind] at hitems
      cases hitems
      rfl

/-- An available store fails to read only records that it does not have. -/
theorem getStored_error (hE : Available E) {r : Resource} {name : String} {e : GoError}
    (hrun : (getStored r name).run.Runs E s (.error e) t) :
    t = s ∧ ∀ id, parseInstanceName r name = .ok id → s.findItem r.kind id = none := by
  simp only [getStored, runs_run_bind, runs_ofResult] at hrun
  rcases hrun with ⟨e', -, hparse, rfl⟩ | ⟨id, u, ⟨hparse, rfl⟩, hlookup⟩
  · refine ⟨rfl, fun id hid => ?_⟩
    rw [hparse] at hid
    cases hid
  · rcases hlookup with ⟨e', -, hcall⟩ | ⟨items, v, hcall, honly⟩
    · obtain ⟨message, -, hcall⟩ := (runs_storeCall_error (.getItemsByID r.kind [id])).mp hcall
      refine ⟨hE.refused _ s t message hcall, fun id' hid => ?_⟩
      rw [hparse] at hid
      cases hid
      exact hE.getItemsByID_stored _ _ s t message hcall
    · rw [runs_storeCall_ok (.getItemsByID r.kind [id])] at hcall
      have hdoc := hE.accepted _ s v items hcall
      have hitems := documented_getItemsByID s.wellFormed hdoc
      obtain rfl : v = s := Store.ext hdoc.1
      cases hfind : v.contents.findItem r.kind id with
      | some found =>
          rw [hitems, hfind, Option.toList_some, onlyItem_singleton, runs_run_pure] at honly
          cases honly.1
      | none =>
          rw [hitems, hfind, Option.toList_none, onlyItem_nil, runs_run_throw] at honly
          refine ⟨honly.2.symm, fun id' hid => ?_⟩
          rw [hparse] at hid
          cases hid
          exact hfind

/-- Reading the name of a stored record succeeds. -/
theorem runs_getStored_of_stored (hE : Available E) {r : Resource} {name : String} {id : Int}
    {item : Item r.kind} (hparse : parseInstanceName r name = .ok id)
    (hstored : s.findItem r.kind id = some item) :
    (getStored r name).run.Runs E s (.ok item) s := by
  obtain ⟨reply, t, hrun⟩ := exists_runs hE.responds (getStored r name).run s
  cases reply with
  | error e =>
      obtain ⟨-, hnone⟩ := getStored_error hE hrun
      have hmissing := hnone id hparse
      rw [hstored] at hmissing
      cases hmissing
  | ok other =>
      obtain ⟨rfl, id', hparse', hother⟩ := getStored_ok hE.toLawful hrun
      rw [hparse] at hparse'
      cases hparse'
      rw [hstored] at hother
      cases hother
      exact hrun

/-- Reading a name that no stored record has fails. -/
theorem runs_getStored_of_missing (hE : Available E) {r : Resource} {name : String}
    (hmissing : ∀ id, parseInstanceName r name = .ok id → s.findItem r.kind id = none) :
    ∃ e, (getStored r name).run.Runs E s (.error e) s := by
  obtain ⟨reply, t, hrun⟩ := exists_runs hE.responds (getStored r name).run s
  cases reply with
  | error e =>
      obtain ⟨rfl, -⟩ := getStored_error hE hrun
      exact ⟨e, hrun⟩
  | ok item =>
      obtain ⟨-, id, hparse, hitem⟩ := getStored_ok hE.toLawful hrun
      rw [hmissing id hparse] at hitem
      cases hitem

/-- The record that a create handler puts. -/
def typedItem {k : Kind} (type : StoredType) (item : Item k) : Item k :=
  { item with typeId := some type.id }

/-- The record as it is stored under its new id. -/
def storedItem {k : Kind} (type : StoredType) (item : Item k) (id : Int) : Item k :=
  { typedItem type item with id := some id }

/-- How a create handler of an item without id ends: the parent's type cannot be
looked up, the store refuses the item, or the item is stored and read back. -/
theorem runs_createItem (hE : Lawful E) {r : Resource} {parent : String} {item : Item r.kind}
    {reply : Except GoError (Item r.kind)} (hnew : item.id = none)
    (hrun : (createItem r parent (some item)).run.Runs E s reply t) :
    (∃ cause, reply = .error (.wrapf ("failed to resolve " ++ r.title ++ "Type under %q: %v")
        [.text parent] cause) ∧ (getType r parent).run.Runs E s (.error cause) t) ∨
    ∃ type, s.findType r.kind (Text.trimPrefix parent r.typesCollection) = some type ∧
      ((∃ message, reply = .error (.text message) ∧
          E (.putItems r.kind [typedItem type item]) s (.error message) t) ∨
        ∃ id u, E (.putItems r.kind [typedItem type item]) s (.ok [id]) u ∧
          (getStored r (instanceName r parent id)).run.Runs E u reply t) := by
  simp only [createItem, hnew, Option.isSome_none, Bool.false_eq_true, if_false] at hrun
  rw [runs_run_bind] at hrun
  rcases hrun with ⟨e, rfl, hresolve⟩ | ⟨type, u, hresolve, hput⟩
  · obtain ⟨cause, rfl, hget⟩ := runs_wrapError_error.mp hresolve
    exact Or.inl ⟨cause, rfl, hget⟩
  · obtain ⟨rfl, stored, hstored, rfl⟩ := getType_ok hE (runs_wrapError_ok.mp hresolve)
    refine Or.inr ⟨stored, hstored, ?_⟩
    rw [runs_run_bind] at hput
    rcases hput with ⟨e, rfl, herror⟩ | ⟨ids, v, hcall, hrest⟩
    · obtain ⟨message, rfl, hrefused⟩ :=
        (runs_storeCall_error (.putItems r.kind [typedItem stored item])).mp herror
      exact Or.inl ⟨message, rfl, hrefused⟩
    · have hput := (runs_storeCall_ok (.putItems r.kind [typedItem stored item])).mp hcall
      have hdoc := hE.accepted (.putItems r.kind [typedItem stored item]) u v ids hput
      have hid : (typedItem stored item).id = none := hnew
      obtain ⟨id, rfl, -⟩ := (putItems_singleton hid).mp hdoc
      exact Or.inr ⟨id, v, hput, hrest⟩

/-- A create handler can do what its store can. -/
theorem runs_createItem_of_put (hE : Available E) {r : Resource} {parent : String}
    {item : Item r.kind} {reply : Except GoError (Item r.kind)} {type : StoredType} {id : Int}
    {u : Store} (hnew : item.id = none)
    (htype : s.findType r.kind (Text.trimPrefix parent r.typesCollection) = some type)
    (hput : E (.putItems r.kind [typedItem type item]) s (.ok [id]) u)
    (hread : (getStored r (instanceName r parent id)).run.Runs E u reply t) :
    (createItem r parent (some item)).run.Runs E s reply t := by
  simp only [createItem, hnew, Option.isSome_none, Bool.false_eq_true, if_false]
  rw [runs_run_bind]
  refine Or.inr ⟨type.toRecord, s,
    runs_wrapError_ok.mpr (runs_getType_of_stored hE htype), ?_⟩
  rw [runs_run_bind]
  exact Or.inr ⟨[id], u,
    (runs_storeCall_ok (.putItems r.kind [typedItem type item])).mpr hput, hread⟩

/-! ## Which calls a handler issues -/

variable {allowed : Call → Prop}

theorem uses_onlyItem (r : Resource) (notSingle : String) (items : List (Item r.kind)) :
    (onlyItem r notSingle items).run.Uses (I := api) allowed := by
  unfold onlyItem
  split
  · exact uses_run_pure _
  · exact uses_run_throw _

theorem uses_getType (hread : ∀ op, Call.IsRead op → allowed op) (r : Resource)
    (name : String) : (getType r name).run.Uses (I := api) allowed :=
  uses_storeCall (hread _ trivial)

theorem uses_getStored (hread : ∀ op, Call.IsRead op → allowed op) (r : Resource)
    (name : String) : (getStored r name).run.Uses (I := api) allowed :=
  Uses.run_bind trivial fun _ =>
    Uses.run_bind (uses_storeCall (hread _ trivial)) fun items => uses_onlyItem r _ items

theorem uses_listItems (hread : ∀ op, Call.IsRead op → allowed op) (r : Resource)
    (name : String) : (listItems r name).run.Uses (I := api) allowed := by
  unfold listItems
  dsimp only
  rw [ExceptT.run_mk]
  refine Uses.bind ?_ fun reply => ?_
  · split
    · exact uses_call.mpr (hread _ trivial)
    · exact uses_call.mpr (hread _ trivial)
  · cases reply with
    | ok items => exact uses_pure _
    | error message =>
        dsimp only
        split
        · exact uses_pure _
        · exact uses_pure _

theorem uses_getInEvents (r : Resource) (hfind : ∀ id, allowed (.getItemsByID r.kind [id]))
    (notSingle : String) (idOf : Event → Int) (events : List Event)
    (results : Finmap fun _ : Int => Item r.kind) :
    (getInEvents r notSingle idOf events results).run.Uses (I := api) allowed := by
  induction events generalizing results with
  | nil => exact uses_run_pure _
  | cons e events ih =>
      unfold getInEvents
      split
      · exact ih results
      · exact Uses.run_bind (uses_storeCall (hfind _)) fun items =>
          Uses.run_bind (uses_onlyItem r notSingle items) fun item => ih _

theorem uses_listEvents (hread : ∀ op, Call.IsRead op → allowed op) (name : String) :
    (listEvents name).run.Uses (I := api) allowed := by
  have hevents : ∀ (op : Call) (events : op.Result → List Event), op.IsRead →
      (eventsOrNone op events).run.Uses (I := api) allowed := by
    intro op events hop
    apply Uses.bind (uses_call.mpr (hread op hop))
    intro reply
    cases reply with
    | ok result => exact uses_pure _
    | error message => exact uses_pure _
  unfold listEvents
  refine Uses.run_bind ?_ fun events => ?_
  · unfold namedEvents
    split
    · exact Uses.run_bind trivial fun id => hevents _ _ trivial
    · exact Uses.run_bind trivial fun id => hevents _ _ trivial
  · have hfind : ∀ (r : Resource) (id : Int), allowed (.getItemsByID r.kind [id]) :=
      fun _ _ => hread _ trivial
    exact Uses.run_bind (uses_wrapError (uses_getInEvents .artifact (hfind _) _ _ _ _)) fun _ =>
      Uses.run_bind (uses_wrapError (uses_getInEvents .execution (hfind _) _ _ _ _)) fun _ =>
        uses_run_pure _

/-- The calls that change the store at a handler's request. -/
inductive Request.Writes : Request → Call → Prop
  | createArtifactType (type : TypeRecord) :
      Writes (.createArtifactType (some type)) (.putType .artifact type createOptions)
  | createExecutionType (type : TypeRecord) :
      Writes (.createExecutionType (some type)) (.putType .execution type createOptions)
  | updateArtifactType (type : TypeRecord) :
      Writes (.updateArtifactType (some type)) (.putType .artifact type updateOptions)
  | updateExecutionType (type : TypeRecord) :
      Writes (.updateExecutionType (some type)) (.putType .execution type updateOptions)
  | createArtifact (parent : String) (item : Artifact) (typeId : Int) (hnew : item.id = none) :
      Writes (.createArtifact parent (some item))
        (.putItems .artifact [{ item with typeId := some typeId }])
  | createExecution (parent : String) (item : Execution) (typeId : Int) (hnew : item.id = none) :
      Writes (.createExecution parent (some item))
        (.putItems .execution [{ item with typeId := some typeId }])
  | createEvent (event : Option Event) : Writes (.createEvent event) (.putEvents [event])

/-- A handler writes by inserting only. -/
theorem Request.Writes.inserts {request : Request} {op : Call} (hwrites : request.Writes op) :
    op.Inserts := by
  cases hwrites with
  | createArtifact parent item typeId hnew =>
      intro x hx
      rw [List.mem_singleton.mp hx]
      exact hnew
  | createExecution parent item typeId hnew =>
      intro x hx
      rw [List.mem_singleton.mp hx]
      exact hnew
  | _ => trivial

theorem inserts_of_isRead {op : Call} (hread : op.IsRead) : op.Inserts := by
  cases op with
  | putItems k items => exact hread.elim
  | _ => trivial

theorem uses_putType (hread : ∀ op, Call.IsRead op → allowed op) (r : Resource)
    (opts : PutTypeOptions) (type : Option TypeRecord)
    (hput : ∀ type', type = some type' → allowed (.putType r.kind type' opts)) :
    (putType r opts type).run.Uses (I := api) allowed := by
  cases type with
  | none => exact uses_run_throw _
  | some type =>
      exact Uses.run_bind (uses_storeCall (hput type rfl)) fun _ => uses_getType hread r _

theorem uses_createItem (hread : ∀ op, Call.IsRead op → allowed op) (r : Resource)
    (parent : String) (item : Option (Item r.kind))
    (hput : ∀ item' typeId, item = some item' → item'.id = none →
      allowed (.putItems r.kind [{ item' with typeId := some typeId }])) :
    (createItem r parent item).run.Uses (I := api) allowed := by
  cases item with
  | none => exact uses_run_throw _
  | some item =>
      simp only [createItem]
      by_cases hid : item.id.isSome = true
      · rw [if_pos hid]
        exact uses_run_throw _
      · rw [if_neg hid]
        have hnew : item.id = none := by simpa using hid
        apply Uses.run_bind (uses_wrapError (uses_getType hread r parent))
        intro type
        apply Uses.run_bind (uses_storeCall (hput item _ rfl hnew))
        intro ids
        split
        · exact uses_getStored hread r _
        · exact uses_run_throw _

/-- A handler reads, and otherwise issues only the write of its request. -/
theorem uses_handle (request : Request) :
    (handle request).run.Uses (I := api) fun op => op.IsRead ∨ request.Writes op := by
  have hread : ∀ op : Call, op.IsRead → op.IsRead ∨ request.Writes op := fun _ => Or.inl
  cases request with
  | createArtifactType type =>
      apply uses_putType hread .artifact _ type
      rintro type' rfl
      exact Or.inr (.createArtifactType type')
  | updateArtifactType type =>
      apply uses_putType hread .artifact _ type
      rintro type' rfl
      exact Or.inr (.updateArtifactType type')
  | createExecutionType type =>
      apply uses_putType hread .execution _ type
      rintro type' rfl
      exact Or.inr (.createExecutionType type')
  | updateExecutionType type =>
      apply uses_putType hread .execution _ type
      rintro type' rfl
      exact Or.inr (.updateExecutionType type')
  | createArtifact parent item =>
      apply uses_createItem hread .artifact parent item
      rintro item' typeId rfl hnew
      exact Or.inr (.createArtifact parent item' typeId hnew)
  | createExecution parent item =>
      apply uses_createItem hread .execution parent item
      rintro item' typeId rfl hnew
      exact Or.inr (.createExecution parent item' typeId hnew)
  | getArtifactType name => exact uses_getType hread .artifact name
  | getExecutionType name => exact uses_getType hread .execution name
  | listArtifactTypes => exact uses_storeCall (Or.inl trivial)
  | listExecutionTypes => exact uses_storeCall (Or.inl trivial)
  | getArtifact name => exact uses_getStored hread .artifact name
  | getExecution name => exact uses_getStored hread .execution name
  | listArtifacts name => exact uses_listItems hread .artifact name
  | listExecutions name => exact uses_listItems hread .execution name
  | createEvent event => exact uses_storeCall (Or.inr (.createEvent event))
  | listEvents name => exact uses_listEvents hread name
  | deleteArtifactType name => exact uses_run_throw _
  | deleteArtifact name => exact uses_run_throw _
  | deleteExecutionType name => exact uses_run_throw _
  | deleteExecution name => exact uses_run_throw _

end KfMetadata.Service
