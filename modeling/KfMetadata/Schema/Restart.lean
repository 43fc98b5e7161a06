/-
# Registering again after a restart

The server registers the same directory at every start. Between two starts any
requests may be served. The types of the directory stay stored as they were
registered as long as no update asks for further properties of one of them, and
then registering them again changes nothing; one such update, which the service
accepts, and the next start fails.
-/

import KfMetadata.Schema.Register

namespace KfMetadata.Schema

open Mlmd Service Remote Remote.Program

variable {E : Effect api Store} {s t : Store}

/-! ## One round of the registration loop -/

theorem runs_registerType {r : Resource} {type : TypeRecord} {result : Except Failure Unit} :
    (registerType r type).run.Runs E s result t ↔
      ∃ reply, (putType r createOptions (some type)).run.Runs E s reply t ∧
        result = match reply with
          | .ok _ => .ok ()
          | .error e => .error (.error (.wrapf "failed to register schema: %v" []
              (.wrapf "error response from metadata server: %s" [] e))) := by
  rw [registerType, ExceptT.run_mk, runs_bind, createType_eq]
  apply Iff.intro
  · rintro ⟨reply, u, hput, hrest⟩
    cases reply with
    | ok value =>
        obtain ⟨rfl, rfl⟩ := runs_pure.mp hrest
        exact ⟨_, hput, rfl⟩
    | error e =>
        obtain ⟨rfl, rfl⟩ := runs_pure.mp hrest
        exact ⟨_, hput, rfl⟩
  · rintro ⟨reply, hput, rfl⟩
    refine ⟨reply, t, hput, ?_⟩
    cases reply with
    | ok value => exact runs_pure.mpr ⟨rfl, rfl⟩
    | error e => exact runs_pure.mpr ⟨rfl, rfl⟩

/-- A registered type is stored as it is. -/
theorem storedAs_of_registerType (hE : Lawful E) {r : Resource} {type : TypeRecord}
    (hrun : (registerType r type).run.Runs E s (.ok ()) t) : StoredAs t r type := by
  obtain ⟨reply, hput, hreply⟩ := runs_registerType.mp hrun
  cases reply with
  | error e => cases hreply
  | ok value =>
      rcases runs_putType.mp hput with ⟨message, hrefused, -⟩ | ⟨id, u, hcall, hget⟩
      · cases hrefused
      · obtain ⟨rfl, stored, hstored, -⟩ := getType_ok hE hget
        refine ⟨⟨_, (findType_of_putType hE hcall).1, rfl⟩, ?_⟩
        rw [hstored]
        rfl

/-- Registering a type that is stored as it is succeeds and changes nothing. -/
theorem registerType_again (hE : Available E) {r : Resource} {type : TypeRecord}
    {result : Except Failure Unit} (hid : type.id = none) (hstored : StoredAs s r type)
    (hrun : (registerType r type).run.Runs E s result t) : result = .ok () ∧ t = s := by
  obtain ⟨reply, hput, rfl⟩ := runs_registerType.mp hrun
  obtain ⟨⟨old, hold, hsame⟩, hfound⟩ := hstored
  rcases runs_putType.mp hput with ⟨message, -, hrefused⟩ | ⟨id, u, hcall, hget⟩
  · exact absurd ⟨rfl, rfl, hsame.symm⟩
      (hE.putType_stored _ _ _ s t message old hrefused hold hid)
  · obtain rfl := putType_of_same hE.toLawful hcall hold hsame
    cases reply with
    | ok value => exact ⟨rfl, (getType_ok hE.toLawful hget).1⟩
    | error e =>
        obtain ⟨-, hmissing⟩ := getType_error_of_available hE hget
        rw [hmissing] at hfound
        cases hfound

/-! ## The whole loop -/

/-- Registration reads, and puts the types that it registers with the strict options. -/
theorem uses_registerType {allowed : Call → Prop} (hread : ∀ op, Call.IsRead op → allowed op)
    {r : Resource} {type : TypeRecord} (hput : allowed (.putType r.kind type createOptions)) :
    (registerType r type).run.Uses (I := api) allowed := by
  rw [registerType, ExceptT.run_mk, createType_eq]
  refine Uses.bind (uses_putType hread r createOptions _ ?_) fun reply => ?_
  · intro type' htype
    cases htype
    exact hput
  · cases reply with
    | ok value => exact uses_pure _
    | error e => exact uses_pure _

theorem uses_registerIn {allowed : Call → Prop} (hread : ∀ op, Call.IsRead op → allowed op)
    {ss : SchemaSet} {depth : Nat} {order : List String}
    (hput : ∀ r type, Defines ss depth order r type →
      allowed (.putType r.kind type createOptions)) :
    (registerIn ss depth order).run.Uses (I := api) allowed := by
  induction order with
  | nil => exact uses_run_pure _
  | cons id ids ih =>
      have hlater := ih fun r type ⟨id', hmem, htype⟩ =>
        hput r type ⟨id', List.mem_cons_of_mem id hmem, htype⟩
      unfold registerIn
      split
      · exact uses_run_throw _
      · exact hlater
      · rename_i r type hsome
        apply Uses.run_bind (uses_registerType hread (hput r type ⟨id, List.mem_cons_self, hsome⟩))
        intro _
        exact Uses.run_bind hlater fun _ => uses_run_pure _

/-- Reads and strict puts extend no type. -/
theorem keeps_of_isRead (D : Resource → TypeRecord → Prop) (op : Call) (hread : op.IsRead) :
    Keeps D op := by
  cases op with
  | putType k type opts => exact hread.elim
  | _ => trivial

theorem keeps_createOptions (D : Resource → TypeRecord → Prop) (k : Kind) (type : TypeRecord) :
    Keeps D (.putType k type createOptions) := by
  intro hadd
  cases hadd

/-- A loop that succeeds passes its first schema over, or registers its type. -/
theorem registerIn_cons_ok {ss : SchemaSet} {depth : Nat} {id : String} {ids types : List String}
    (hrun : (registerIn ss depth (id :: ids)).run.Runs E s (.ok types) t) :
    (schemaType ss depth id = .ok none ∧ (registerIn ss depth ids).run.Runs E s (.ok types) t) ∨
    ∃ r type u later, schemaType ss depth id = .ok (some (r, type)) ∧
      (registerType r type).run.Runs E s (.ok ()) u ∧
      (registerIn ss depth ids).run.Runs E u (.ok later) t ∧ types = type.getName :: later := by
  unfold registerIn at hrun
  split at hrun
  next => cases (runs_run_throw.mp hrun).1
  next hnone => exact Or.inl ⟨hnone, hrun⟩
  next r type hsome =>
    obtain ⟨_, u, hregister, hrest⟩ := runs_run_bind_ok.mp hrun
    obtain ⟨later, v, hloop, hresult⟩ := runs_run_bind_ok.mp hrest
    obtain ⟨htypes, rfl⟩ := runs_run_pure.mp hresult
    exact Or.inr ⟨r, type, u, later, hsome, hregister, hloop, (Except.ok.inj htypes).symm⟩

/-- A loop whose schemas are understood and whose registrations succeed does so itself, and
keeps what these keep. -/
theorem registerIn_succeeds {P : Store → Prop} {ss : SchemaSet} {depth : Nat}
    {order : List String} {result : Except Failure (List String)}
    (hdefined : ∀ id ∈ order, ∃ found, schemaType ss depth id = .ok found)
    (hregister : ∀ r type, Defines ss depth order r type → ∀ {s t : Store} {result},
      P s → (registerType r type).run.Runs E s result t → result = .ok () ∧ P t)
    (hs : P s) (hrun : (registerIn ss depth order).run.Runs E s result t) :
    (∃ types, result = .ok types) ∧ P t := by
  induction order generalizing s t result with
  | nil =>
      obtain ⟨rfl, rfl⟩ := runs_run_pure.mp hrun
      exact ⟨⟨_, rfl⟩, hs⟩
  | cons id ids ih =>
      have hlater : ∀ {s t : Store} {result}, P s →
          (registerIn ss depth ids).run.Runs E s result t →
          (∃ types, result = .ok types) ∧ P t :=
        ih (fun id' hmem => hdefined id' (List.mem_cons_of_mem id hmem))
          (fun r type ⟨id', hmem, htype⟩ =>
            hregister r type ⟨id', List.mem_cons_of_mem id hmem, htype⟩)
      unfold registerIn at hrun
      split at hrun
      next failure hfailure =>
        obtain ⟨found, hfound⟩ := hdefined id List.mem_cons_self
        rw [hfailure] at hfound
        cases hfound
      next => exact hlater hs hrun
      next r type hsome =>
        have hhere := @hregister r type ⟨id, List.mem_cons_self, hsome⟩
        rcases runs_run_bind.mp hrun with ⟨failure, -, hone⟩ | ⟨_, u, hone, hrest⟩
        · cases (hhere hs hone).1
        · have hu := (hhere hs hone).2
          rcases runs_run_bind.mp hrest with ⟨failure, -, hloop⟩ | ⟨types, v, hloop, hresult⟩
          · obtain ⟨⟨types, htypes⟩, -⟩ := hlater hu hloop
            cases htypes
          · obtain ⟨rfl, rfl⟩ := runs_run_pure.mp hresult
            exact ⟨⟨_, rfl⟩, (hlater hu hloop).2⟩

/-- What has just been registered is still stored as it is after the rest of the loop. -/
theorem storedAs_of_registerIn (hE : Lawful E) {r : Resource} {type : TypeRecord}
    {ss : SchemaSet} {depth : Nat} {order : List String} {result : Except Failure (List String)}
    (hstored : StoredAs s r type)
    (hrun : (registerIn ss depth order).run.Runs E s result t) : StoredAs t r type := by
  have hall : AllStored (fun r' type' => r' = r ∧ type' = type) s := by
    rintro r' type' ⟨rfl, rfl⟩
    exact hstored
  have hkept := hrun.preserves
    (uses_registerIn (keeps_of_isRead _) fun _ _ _ => keeps_createOptions _ _ _)
    (fun op s' reply t' hkeeps heffect hall' => hall'.call hE.sound hkeeps heffect) hall
  exact hkept r type ⟨rfl, rfl⟩

/-- After a successful registration all types that the visited schemas define are
stored as they are, and every visited schema defines something or is passed over. -/
theorem registerIn_ok (hE : Lawful E) {ss : SchemaSet} {depth : Nat} {order types : List String}
    (hrun : (registerIn ss depth order).run.Runs E s (.ok types) t) :
    AllStored (Defines ss depth order) t ∧
      ∀ id ∈ order, ∃ result, schemaType ss depth id = .ok result := by
  induction order generalizing s types with
  | nil =>
      refine ⟨?_, fun id hid => absurd hid List.not_mem_nil⟩
      rintro r type ⟨id, hid, -⟩
      exact absurd hid List.not_mem_nil
  | cons id ids ih =>
      rcases registerIn_cons_ok hrun with
        ⟨hnone, hloop⟩ | ⟨r, type, u, later, hsome, hregister, hloop, -⟩
      · obtain ⟨hall, hdefined⟩ := ih hloop
        refine ⟨?_, List.forall_mem_cons.mpr ⟨⟨_, hnone⟩, hdefined⟩⟩
        rintro r type ⟨id', hid', htype⟩
        rcases List.mem_cons.mp hid' with rfl | hmem
        · rw [hnone] at htype
          cases htype
        · exact hall r type ⟨id', hmem, htype⟩
      · obtain ⟨hall, hdefined⟩ := ih hloop
        refine ⟨?_, List.forall_mem_cons.mpr ⟨⟨_, hsome⟩, hdefined⟩⟩
        rintro r' type' ⟨id', hid', htype⟩
        rcases List.mem_cons.mp hid' with rfl | hmem
        · rw [hsome] at htype
          cases htype
          exact storedAs_of_registerIn hE (storedAs_of_registerType hE hregister) hloop
        · exact hall r' type' ⟨id', hmem, htype⟩

/-- Registering schemas whose types are all stored as they are succeeds and changes
nothing. -/
theorem registerIn_again (hE : Available E) {ss : SchemaSet} {depth : Nat} {order : List String}
    {result : Except Failure (List String)}
    (hdefined : ∀ id ∈ order, ∃ found, schemaType ss depth id = .ok found)
    (hstored : AllStored (Defines ss depth order) s)
    (hrun : (registerIn ss depth order).run.Runs E s result t) :
    (∃ types, result = .ok types) ∧ t = s := by
  apply registerIn_succeeds (P := fun u => u = s) hdefined ?_ rfl hrun
  intro r type hD u v result' hu hregister
  subst hu
  have hsame := hstored r type hD
  obtain ⟨id, -, htype⟩ := hD
  exact registerType_again hE (id_of_schemaType htype) hsame hregister

/-! ## Requests between two starts -/

/-- If the type's name is that of a defined type, its properties are the stored ones. -/
def AddsNothing (D : Resource → TypeRecord → Prop) (s : Store) (r : Resource)
    (type : TypeRecord) : Prop :=
  ∀ reg stored, D r reg → reg.getName = type.getName →
    s.findType r.kind type.getName = some stored → type.properties = stored.properties

/-- The request is no update that asks for further properties of a defined type. -/
def NoExtension (D : Resource → TypeRecord → Prop) (s : Store) : Request → Prop
  | .updateArtifactType (some type) => AddsNothing D s .artifact type
  | .updateExecutionType (some type) => AddsNothing D s .execution type
  | _ => True

/-- The requests are served with success one after another, each when the condition
holds of the store and the request. -/
def Served (E : Effect api Store) (condition : Store → Request → Prop) :
    List Request → Store → Store → Prop
  | [], s, t => s = t
  | request :: requests, s, t => condition s request ∧ ∃ response u,
      (handle request).run.Runs E s (.ok response) u ∧ Served E condition requests u t

/-- What such an update asks for is stored, and what is stored is what was defined. -/
theorem AddsNothing.keeps {D : Resource → TypeRecord → Prop} (hall : AllStored D s)
    {r : Resource} {type : TypeRecord} (hadds : AddsNothing D s r type) (opts : PutTypeOptions) :
    Keeps D (.putType r.kind type opts) := by
  intro _ r' reg hD hkind hname
  obtain rfl : r' = r := by
    cases r' <;> cases r <;> first | rfl | cases hkind
  obtain ⟨old, hold, hproperties⟩ := (hall r' reg hD).stored
  rw [hname] at hold
  rw [hadds reg old hD hname hold, hproperties]

/-- A request that extends no defined type keeps them all stored. -/
theorem AllStored.handle {D : Resource → TypeRecord → Prop} (hE : Sound E) {request : Request}
    {reply : Except GoError request.Response} (hall : AllStored D s)
    (hcondition : NoExtension D s request) (hrun : (handle request).run.Runs E s reply t) :
    AllStored D t := by
  refine hrun.preserves (uses_handle request)
    (fun op s' reply' t' hallowed heffect hall' => ?_) hall
  refine hall'.call hE ?_ heffect
  rcases hallowed with hread | hwrites
  · exact keeps_of_isRead D op hread
  · cases hwrites with
    | createArtifactType type => exact keeps_createOptions D _ _
    | createExecutionType type => exact keeps_createOptions D _ _
    | updateArtifactType type =>
        exact AddsNothing.keeps (r := .artifact) hall hcondition updateOptions
    | updateExecutionType type =>
        exact AddsNothing.keeps (r := .execution) hall hcondition updateOptions
    | _ => trivial

theorem AllStored.served {D : Resource → TypeRecord → Prop} (hE : Sound E)
    {requests : List Request} (hall : AllStored D s)
    (hserved : Served E (NoExtension D) requests s t) : AllStored D t := by
  induction requests generalizing s with
  | nil =>
      obtain rfl := hserved
      exact hall
  | cons request requests ih =>
      obtain ⟨hcondition, reply, u, hrun, hrest⟩ := hserved
      exact ih (hall.handle hE hcondition hrun) hrest

/-- **Restart safety.** After a successful registration of a directory and any
successful requests none of which asks for further properties of a type that the
directory defines, registering the directory again, in any order of its schemas and with no
smaller bound, succeeds and leaves the store as it was. -/
theorem registerSchemas_again (hE : Available E) {loaded : Except GoError SchemaSet}
    {ss : SchemaSet} (hloaded : loaded = .ok ss) {depth depth' : Nat} (hle : depth ≤ depth')
    {order order' types : List String} (hvisits : Visits ss order) (hvisits' : Visits ss order')
    {s₀ s₁ s₂ : Store}
    (hfirst : (registerSchemas loaded depth order).run.Runs E s₀ (.ok types) s₁)
    {requests : List Request}
    (hserved : Served E (NoExtension (Defines ss depth order)) requests s₁ s₂) :
    (∃ result t, (registerSchemas loaded depth' order').run.Runs E s₂ result t) ∧
      ∀ result t, (registerSchemas loaded depth' order').run.Runs E s₂ result t →
        (∃ types', result = .ok types') ∧ t = s₂ := by
  refine ⟨exists_runs hE.responds _ s₂, fun result t hagain => ?_⟩
  subst hloaded
  obtain ⟨hstored, hdefined⟩ := registerIn_ok hE.toLawful hfirst
  have hlater := hstored.served hE.toLawful.sound hserved
  have hsame : ∀ id ∈ order', ∃ found, schemaType ss depth id = .ok found ∧
      schemaType ss depth' id = .ok found := by
    intro id hid
    have hmem : id ∈ order := (hvisits.2 id).mpr ((hvisits'.2 id).mp hid)
    obtain ⟨found, hfound⟩ := hdefined id hmem
    exact ⟨found, hfound, (schemaType_refines ss hle id).ok hfound⟩
  refine registerIn_again hE (fun id hid => ?_) (fun r type hD => ?_) hagain
  · obtain ⟨found, -, hfound⟩ := hsame id hid
    exact ⟨found, hfound⟩
  · obtain ⟨id, hid, htype⟩ := hD
    obtain ⟨found, hfound, hfound'⟩ := hsame id hid
    rw [hfound'] at htype
    exact hlater r type ⟨id, (hvisits.2 id).mpr ((hvisits'.2 id).mp hid), by rw [hfound, htype]⟩

/-! ## An update that breaks the next start -/

/-- A declaration of a constant text. -/
def constantText (text : String) : Declaration := ⟨.name "string", text⟩

/-- A directory with one schema, of an artifact type. -/
def modelSchema : SchemaSet :=
  Finmap.singleton "model"
    { id := "model"
      properties := (((Finmap.singleton namespacePropertyName (constantText "kubeflow.org")).insert
        kindPropertyName (constantText "model")).insert
        versionPropertyName (constantText "alpha")).insert
        categoryPropertyName (constantText artifactCategory)
      allOf := [] }

theorem visits_modelSchema : Visits modelSchema ["model"] :=
  ⟨List.nodup_singleton _, fun id => by simp [modelSchema]⟩

/-- The store after the first start. -/
def registered : Store :=
  ((registerSchemas (.ok modelSchema) 1 ["model"]).run.run inMemory Store.empty).2

theorem runs_registerSchemas_modelSchema :
    (registerSchemas (.ok modelSchema) 1 ["model"]).run.Runs inMemory.effect Store.empty
      (.ok ["kubeflow.org/alpha/model"]) registered :=
  runs_run_of_toOption inMemory _ _ (by decide +kernel)

/-- An update of the registered type with one more property. -/
def extendModel : TypeRecord where
  id := none
  name := some "kubeflow.org/alpha/model"
  properties := (Finmap.singleton wholeMetaPropertyName .string).insert "accuracy" .double

/-- The store after that update. -/
def extended : Store :=
  ((handle (.updateArtifactType (some extendModel))).run.run inMemory registered).2

/-- Extending a registered type succeeds, and then the next start fails. -/
theorem update_breaks_restart :
    ¬ ∀ (E : Effect api Store), Available E → ∀ (ss : SchemaSet) (depth : Nat)
      (order order' types : List String) (requests : List Request) (s₁ s₂ : Store),
      Visits ss order → Visits ss order' →
      (registerSchemas (.ok ss) depth order).run.Runs E Store.empty (.ok types) s₁ →
      Served E (fun _ _ => True) requests s₁ s₂ →
      ∀ result t, (registerSchemas (.ok ss) depth order').run.Runs E s₂ result t →
        (∃ types', result = .ok types') ∧ t.contents.types = s₂.contents.types := by
  intro hclaim
  have hupdate : (handle (.updateArtifactType (some extendModel))).run.Runs inMemory.effect
      registered (.ok ⟨some 1, extendModel.name, extendModel.properties⟩) extended :=
    runs_run_of_toOption inMemory _ _ (by decide +kernel)
  have hserved : Served inMemory.effect (fun _ _ => True)
      [.updateArtifactType (some extendModel)] registered extended :=
    ⟨trivial, _, _, hupdate, rfl⟩
  obtain ⟨⟨types, hok⟩, -⟩ := hclaim inMemory.effect inMemory_available modelSchema 1 ["model"]
    ["model"] _ _ _ _ visits_modelSchema visits_modelSchema runs_registerSchemas_modelSchema
    hserved _ _ (runs_of_run inMemory _ extended)
  have hfails : ((registerSchemas (.ok modelSchema) 1 ["model"]).run.run inMemory
      extended).1.toOption = none := by
    decide +kernel
  rw [hok] at hfails
  cases hfails

/-- An update of the registered type that asks for what it has. -/
def sameModel : TypeRecord where
  id := none
  name := some "kubeflow.org/alpha/model"
  properties := Finmap.singleton wholeMetaPropertyName .string

/-- The store after that update, and the creation of an artifact of the type. -/
def withModel : Store :=
  ((handle (.createArtifact "artifact_types/kubeflow.org/alpha/model"
    (some ⟨none, none, ∅, ∅, none⟩))).run.run inMemory
      ((handle (.updateArtifactType (some sameModel))).run.run inMemory registered).2).2

/-- Asking for what a registered type has, and creating artifacts of it, leaves the next start
as it was. -/
theorem registerSchemas_again_withModel :
    ∃ types', (registerSchemas (.ok modelSchema) 2 ["model"]).run.Runs inMemory.effect withModel
      (.ok types') withModel := by
  have hupdate : (handle (.updateArtifactType (some sameModel))).run.Runs inMemory.effect
      registered (.ok ⟨some 1, sameModel.name, sameModel.properties⟩) _ :=
    runs_run_of_toOption inMemory _ _ (by decide +kernel)
  have hcreate : (handle (.createArtifact "artifact_types/kubeflow.org/alpha/model"
      (some ⟨none, none, ∅, ∅, none⟩))).run.Runs inMemory.effect _
        (.ok ⟨some 1, some 1, ∅, ∅, none⟩) withModel :=
    runs_run_of_toOption inMemory _ _ (by decide +kernel)
  have hadds : AddsNothing (Defines modelSchema 1 ["model"]) registered .artifact sameModel := by
    intro reg stored _ _ hstored
    have hfind : registered.findType .artifact sameModel.getName =
        some ⟨1, "kubeflow.org/alpha/model", sameModel.properties⟩ := by
      decide +kernel
    rw [← Option.some.inj (hfind.symm.trans hstored)]
  have hserved : Served inMemory.effect (NoExtension (Defines modelSchema 1 ["model"]))
      [.updateArtifactType (some sameModel),
        .createArtifact "artifact_types/kubeflow.org/alpha/model" (some ⟨none, none, ∅, ∅, none⟩)]
      registered withModel :=
    ⟨hadds, _, _, hupdate, trivial, _, _, hcreate, rfl⟩
  obtain ⟨⟨result, t, hrun⟩, hagain⟩ := registerSchemas_again inMemory_available rfl
    (Nat.le_succ 1) visits_modelSchema visits_modelSchema runs_registerSchemas_modelSchema hserved
  obtain ⟨⟨types', rfl⟩, rfl⟩ := hagain result t hrun
  exact ⟨types', hrun⟩

end KfMetadata.Schema
