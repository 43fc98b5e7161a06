/-
# Users of one server

Any number of users share one server. Some work with the client: they construct
workspaces and executions, log artifact objects as inputs and outputs, and list what is in
their workspaces. Others send requests to the service. Their calls are interleaved in any
way, and the store may also be added to from outside, as by an attempt of a call whose
reply was lost.

If the server has registered the shipped schemas, no construction of an execution and no
logging raises an exception, whatever the others do in the meantime, unless every id is
taken. Each ends with what it was for in the store. A list raises an exception only for a
stored artifact that cannot be read.
-/

import KfMetadata.Schema.VisitOrder
import KfMetadata.Sdk.Listing
import KfMetadata.Sdk.Working
import KfMetadata.Sdk.Workspaces

namespace KfMetadata.Sdk

open Mlmd Remote Remote.Program Schema Service

/-! ## Constructing workspaces -/

section Workspaces

variable {E : Effect api Store} {P : Store → Prop} {s : Store} {α : Type}

/-- What the program returns satisfies `post`; of what it raises nothing is said. -/
abbrev WorkingOk (E : Effect api Store) (P : Store → Prop) (post : α → Store → Prop)
    (x : Py α) (s : Store) : Prop :=
  SafeOk E (fun t => Serving t ∧ P t) Store.Grows AddsOnly post x s

theorem workingOk_call (hE : Sound E) (op : Call) (hinserts : op.Inserts)
    {post : op.Result → Store → Prop}
    (hpost : ∀ t result u, Serving t → E op t (.ok result) u → ∀ v, u.Grows v → post result v) :
    WorkingOk E P post (callOr .rpc op) s := by
  apply working_retry hE op hinserts
  intro t reply u _ hserving heffect v huv a ha
  cases reply with
  | error message => cases ha
  | ok result =>
      cases ha
      exact hpost t a u hserving heffect v huv

/-- Trying again ends like one of the attempts. -/
theorem workingOk_retrying {f : Py α} {post : α → Store → Prop}
    (hf : ∀ s, WorkingOk E P post f s) (retries : Nat) (s : Store) :
    WorkingOk E P post (retrying f retries) s := by
  induction retries generalizing s with
  | zero => exact hf s
  | succ retries ih =>
      refine Safe.bind _ grows_refl grows_trans (hf s) fun result t _ hresult => ?_
      cases result with
      | ok value => exact Safe.pure hresult
      | error e => exact ih t

theorem WorkingOk.bind {β : Type} (mid : α → Store → Prop) {post : β → Store → Prop} {x : Py α}
    {f : α → Py β} (hfirst : WorkingOk E P mid x s)
    (hrest : ∀ a t, mid a t → WorkingOk E P post (f a) t) : WorkingOk E P post (x >>= f) s :=
  SafeOk.bind mid grows_refl grows_trans hfirst fun a t hinv hmid =>
    hrest a t (hmid t (grows_refl t) hinv)

/-- The context of this id is stored. -/
def ContextStored (id : Int) (s : Store) : Prop := ∃ w, s.findItem .context id = some w

theorem workingOk_getExistingContext (hE : Sound E) (args : WorkspaceArgs) (name : String) :
    WorkingOk E P (fun found t => ∀ ctx, found = some ctx → ContextStored (ctx.id.getD 0) t)
      (getExistingContext args name) s := by
  have hlookup : ∀ s, WorkingOk E P
      (fun contexts t => ∀ ctx ∈ contexts, ContextStored (ctx.id.getD 0) t)
      (callOr .rpc (.getItemsByType .context contextTypeName)) s := by
    intro s
    apply workingOk_call hE (.getItemsByType .context contextTypeName) trivial
    intro t contexts u hserving heffect v huv ctx hctx
    obtain ⟨hsame, hperm⟩ := hE.accepted (.getItemsByType .context _) t u contexts heffect
    have hstored : ctx ∈ t.contents.items .context :=
      mem_items_of_mem_workspaces (hperm.mem_iff.mp hctx)
    obtain ⟨id, hid, -⟩ := hserving.numbered .context ctx hstored
    rw [hid]
    refine ⟨ctx, huv.findItem ?_⟩
    rw [Store.findItem, hsame]
    exact (Keyed.find_eq_some_iff (t.wellFormed.itemIds .context)).mpr ⟨hstored, hid⟩
  refine WorkingOk.bind _ (workingOk_retrying hlookup _ s) fun contexts t hcontexts => ?_
  refine SafeOk.pure fun u htu _ ctx hfound => ?_
  obtain ⟨w, hw⟩ := hcontexts ctx (List.mem_of_find?_eq_some hfound)
  exact ⟨w, htu.findItem hw⟩

theorem workingOk_putContext (hE : Sound E) (args : WorkspaceArgs) (name : String) (typeId : Int) :
    WorkingOk E P ContextStored (putContext args name typeId) s := by
  have hput : WorkingOk E P (fun ids t => ∃ id, ids = [id] ∧ ContextStored id t)
      (callOr .rpc (.putItems .context [args.context name typeId])) s := by
    apply workingOk_call hE
    · intro x hx
      rw [List.mem_singleton.mp hx]
      rfl
    · intro t ids u _ heffect v huv
      obtain ⟨id, rfl, -, hfresh, -, -, hu⟩ := (putItems_singleton rfl).mp
        (hE.accepted (.putItems .context _) t u ids heffect)
      have hstored : u.findItem .context id =
          some { args.context name typeId with id := some id } := by
        rw [Store.findItem, hu]
        exact Contents.findItem_addItem_self rfl hfresh
      exact ⟨id, rfl, _, huv.findItem hstored⟩
  refine WorkingOk.bind _ hput fun ids t hids => ?_
  obtain ⟨id, rfl, w, hw⟩ := hids
  exact SafeOk.pure fun u htu _ => ⟨w, htu.findItem hw⟩

/-- A workspace that is constructed, or found, is that of a stored context. -/
theorem workingOk_newWorkspace (hE : Sound E) (args : WorkspaceArgs) :
    WorkingOk E P (fun w t => ContextStored w.contextId t) (newWorkspace args) s := by
  have hcreate : ∀ name t, WorkingOk E P ContextStored (createContext args name) t := by
    intro name t
    refine WorkingOk.bind (fun _ _ => True) (workingOk_retrying (fun s => ?_) _ t) fun typeId u _ =>
      workingOk_retrying (fun s => workingOk_putContext hE args name typeId) _ u
    exact workingOk_call hE (.putType .context workspaceType sameFields) trivial
      fun _ _ _ _ _ _ _ => trivial
  unfold newWorkspace
  split
  · exact SafeOk.throw _ s
  cases args.name with
  | none => exact SafeOk.throw _ s
  | some name =>
      dsimp only
      split
      · refine WorkingOk.bind ContextStored ?_ fun contextId t hstored => ?_
        · refine WorkingOk.bind _ (workingOk_getExistingContext hE args name)
            fun found t hfound => ?_
          cases found with
          | none => exact hcreate name t
          | some ctx =>
              dsimp only
              split
              · obtain ⟨w, hw⟩ := hfound ctx rfl
                exact SafeOk.pure fun u htu _ => ⟨w, htu.findItem hw⟩
              · exact SafeOk.throw _ t
        · obtain ⟨w, hw⟩ := hstored
          exact SafeOk.pure fun u htu _ => ⟨w, htu.findItem hw⟩
      · exact SafeOk.throw _ s

end Workspaces

/-! ## Listing workspaces -/

section Lists

variable {E : Effect api Store} {P : Store → Prop} {s : Store}

/-- The type whose artifacts are listed. -/
def listedType (artifactTypeName : Option String) : String :=
  artifactTypeName.getD Model.artifactTypeName

/-- A list is made of artifacts of the type, among them all that are stored all the time. -/
theorem working_list (hE : Obliging E) (loads : Loads) (workspace : Workspace)
    (artifactTypeName : Option String) :
    Working E P (fun result t => ∃ pbs,
      result = Fallible.collect (fun artifact => flat loads (some artifact)) (names workspace.name)
        pbs ∧
      (∀ a ∈ pbs, a ∈ t.contents.itemsOfType .artifact (listedType artifactTypeName)) ∧
      ∀ a, (∀ u, P u → a ∈ u.contents.itemsOfType .artifact (listedType artifactTypeName)) →
        a ∈ pbs)
      (workspace.list loads artifactTypeName).run s := by
  have hlookup : Working E P (fun result t => ∃ pbs, result = .ok pbs ∧
      (∀ a ∈ pbs, a ∈ t.contents.itemsOfType .artifact (listedType artifactTypeName)) ∧
      ∀ a, (∀ u, P u → a ∈ u.contents.itemsOfType .artifact (listedType artifactTypeName)) →
        a ∈ pbs)
      (ExceptT.adapt ListError.raised
        (retry (.getItemsByType .artifact (listedType artifactTypeName)))).run s := by
    refine Safe.map grows_refl grows_trans ?_
    intro t _ hinv reply u heffect
    obtain ⟨rfl, pbs, rfl, hperm⟩ := hE.getItemsByType heffect
    refine ⟨⟨⟨grows_refl u, id⟩, id⟩, fun v huv _ => ⟨pbs, rfl, fun a ha => ?_, fun a ha => ?_⟩⟩
    · exact (huv.itemsOfType _).subset (hperm.mem_iff.mp ha)
    · exact hperm.mem_iff.mpr (ha u hinv.2)
  show Working E P _ (ExceptT.run (ExceptT.adapt ListError.raised
    (retry (.getItemsByType .artifact (listedType artifactTypeName))) >>= _)) s
  rw [ExceptT.run_bind]
  refine Safe.bind _ grows_refl grows_trans hlookup fun result t hinv hresult => ?_
  obtain ⟨pbs, rfl, -⟩ := hresult t (grows_refl t) hinv
  refine Safe.pure fun u htu hinv' => ?_
  obtain ⟨pbs', hsame, hstored⟩ := hresult u htu hinv'
  cases hsame
  exact ⟨pbs, rfl, hstored⟩

/-- How a list ends: its records are those of stored artifacts of the type, or one of these
cannot be flattened. -/
def ListingEnds (loads : Loads) (workspace : Workspace) (artifactTypeName : Option String)
    (result : Except ListError (List FlatRecord)) (s : Store) : Prop :=
  (∀ records, result = .ok records → ∀ record ∈ records, names workspace.name record ∧
    ∃ a ∈ s.contents.itemsOfType .artifact (listedType artifactTypeName),
      flat loads (some a) = .ok record) ∧
  ∀ e, result = .error e →
    ∃ a ∈ s.contents.itemsOfType .artifact (listedType artifactTypeName),
      flat loads (some a) = .error e

theorem listingEnds_of_collect {loads : Loads} {workspace : Workspace}
    {artifactTypeName : Option String} {pbs : List Artifact}
    (hstored : ∀ a ∈ pbs, a ∈ s.contents.itemsOfType .artifact (listedType artifactTypeName)) :
    ListingEnds loads workspace artifactTypeName
      (Fallible.collect (fun artifact => flat loads (some artifact)) (names workspace.name) pbs)
      s := by
  apply And.intro
  · intro records hok record hrecord
    obtain ⟨hnames, a, ha, hflat⟩ := (Fallible.mem_collect hok).mp hrecord
    exact ⟨hnames, a, hstored a ha, hflat⟩
  · intro e herror
    obtain ⟨a, ha, hflat⟩ := Fallible.exists_error_of_collect herror
    exact ⟨a, hstored a ha, hflat⟩

end Lists

/-! ## Users and their tasks -/

/-- What a user calls. An artifact object comes with the id that it has by then, and the
reader of a list with what it reads JSON by. -/
inductive Task
  | newWorkspace (args : WorkspaceArgs)
  | newExecution (name : String) (workspace : Workspace) (run : Option Run)
      (description : Option String) (createTime : String)
  | logInput (self : Execution) (artifact : LoggedObject) (id : Option Int)
  | logOutput (self : Execution) (artifact : LoggedObject) (id : Option Int)
  | list (loads : Loads) (workspace : Workspace) (artifactTypeName : Option String)
  | send (request : Request)

/-- What a task ends in; logging leaves the object with an id, or without one. -/
inductive Ending
  | workspace (result : Except PyError Workspace)
  | execution (result : Except PyError Execution)
  | logged (result : Except PyError Unit) (id : Option Int)
  | listed (result : Except ListError (List FlatRecord))
  | answered (answer : Answer)

/-- The objects that a user has, and the ids of artifact objects. -/
structure Memory where
  workspaces : List Workspace
  executions : List Execution
  ids : List Int

/-- The calls of a task. -/
def Task.program (dumps : Dumps) : Task → Program api Ending
  | .newWorkspace args => .workspace <$> (Sdk.newWorkspace args).run
  | .newExecution name workspace run description createTime =>
      .execution <$> (Sdk.newExecution (some name) (some workspace) run description createTime).run
  | .logInput self artifact id => (fun ending => .logged ending.1 ending.2) <$>
      (self.logInput (some (artifact.object dumps))).run.run id
  | .logOutput self artifact id => (fun ending => .logged ending.1 ending.2) <$>
      (self.logOutput (some (artifact.object dumps))).run.run id
  | .list loads workspace artifactTypeName =>
      .listed <$> (workspace.list loads artifactTypeName).run
  | .send request => (fun reply => .answered ⟨request, reply⟩) <$> (handle request).run

/-- Workspaces, executions and ids have to be there. -/
def Task.Possible (memory : Memory) : Task → Prop
  | .newExecution _ workspace _ _ _ => workspace ∈ memory.workspaces
  | .list _ workspace _ => workspace ∈ memory.workspaces
  | .logInput self _ id => self ∈ memory.executions ∧ ∀ i, id = some i → i ∈ memory.ids
  | .logOutput self _ id => self ∈ memory.executions ∧ ∀ i, id = some i → i ∈ memory.ids
  | _ => True

/-- What a user has got when a task has ended. -/
def Memory.after (memory : Memory) : Ending → Memory
  | .workspace (.ok w) => { memory with workspaces := w :: memory.workspaces }
  | .execution (.ok e) => { memory with executions := e :: memory.executions }
  | .logged _ (some id) => { memory with ids := id :: memory.ids }
  | _ => memory

def users (dumps : Dumps) (ι : Type) : Clients api ι Memory Task Ending where
  ready _ memory task := task.Possible memory
  body _ _ task := task.program dumps
  resume _ memory _ ending := memory.after ending

/-- The store has what a user has got. -/
structure Remembers (memory : Memory) (s : Store) : Prop where
  workspaces : ∀ w ∈ memory.workspaces, ContextStored w.contextId s
  executions : ∀ e ∈ memory.executions, ContextStored e.workspace.contextId s ∧
    ∃ id, e.id = some id ∧ s.findItem .execution id = some { e.serialized with id := some id }
  ids : ∀ id ∈ memory.ids, ∃ a, s.findItem .artifact id = some a

/-- What an answer says is stored. -/
def Answers (request : Request) (reply : Except GoError request.Response) (s : Store) : Prop :=
  ∀ response, reply = .ok response → Kept request response s

/-- How tasks end. -/
def Ends (dumps : Dumps) : Task → Ending → Store → Prop
  | .newWorkspace _, .workspace result, s => ∀ w, result = .ok w → ContextStored w.contextId s
  | .newExecution name workspace run description createTime, .execution result, s =>
      ConstructionEnds name workspace run description createTime result s
  | .logInput self artifact id, .logged result id', s =>
      LogAsEnds dumps .input self artifact id result id' s
  | .logOutput self artifact id, .logged result id', s =>
      LogAsEnds dumps .output self artifact id result id' s
  | .list loads workspace artifactTypeName, .listed result, s =>
      ListingEnds loads workspace artifactTypeName result s
  | .send request, .answered answer, s =>
      ∃ reply, answer = ⟨request, reply⟩ ∧ Answers request reply s
  | _, _, _ => False

variable {E : Effect api Store} {P : Store → Prop} {s t : Store} {memory : Memory} {task : Task}
  {ending : Ending} {dumps : Dumps}

theorem ContextStored.grows {id : Int} (hstored : ContextStored id s) (hgrows : s.Grows t) :
    ContextStored id t := by
  obtain ⟨w, hw⟩ := hstored
  exact ⟨w, hgrows.findItem hw⟩

theorem Remembers.grows (hremembers : Remembers memory s) (hgrows : s.Grows t) :
    Remembers memory t where
  workspaces w hw := (hremembers.workspaces w hw).grows hgrows
  executions e he := by
    obtain ⟨hcontext, id, hid, hstored⟩ := hremembers.executions e he
    exact ⟨hcontext.grows hgrows, id, hid, hgrows.findItem hstored⟩
  ids id hid := by
    obtain ⟨a, ha⟩ := hremembers.ids id hid
    exact ⟨a, hgrows.findItem ha⟩

/-- What a task has got is stored, so that the user remembers it rightly. -/
theorem Remembers.after (hremembers : Remembers memory s) (hpossible : task.Possible memory)
    (hends : Ends dumps task ending s) : Remembers (memory.after ending) s := by
  have hlogged : ∀ type self artifact l result m,
      LogAsEnds dumps type self artifact l result m s →
        Remembers (memory.after (.logged result m)) s := by
    rintro type self artifact l result m ⟨hlog, -⟩
    cases m with
    | none => exact hremembers
    | some id =>
        obtain ⟨a, ha⟩ : ∃ a, s.findItem .artifact id = some a := by
          rcases hlog with ⟨e, -, hm, -⟩ | ⟨-, id', a, hm, ha, -⟩
          · cases hm
          · cases hm
            exact ⟨a, ha⟩
        exact ⟨hremembers.workspaces, hremembers.executions,
          List.forall_mem_cons.mpr ⟨⟨a, ha⟩, hremembers.ids⟩⟩
  cases task with
  | newWorkspace args =>
      cases ending with
      | workspace result =>
          cases result with
          | error e => exact hremembers
          | ok w => exact ⟨List.forall_mem_cons.mpr ⟨hends w rfl, hremembers.workspaces⟩,
              hremembers.executions, hremembers.ids⟩
      | _ => exact hends.elim
  | newExecution name workspace run description createTime =>
      cases ending with
      | execution result =>
          rcases hends with ⟨e, rfl, -⟩ | ⟨id, typeId, self, rfl, rfl, -, hstored⟩
          · exact hremembers
          · exact ⟨hremembers.workspaces, List.forall_mem_cons.mpr
              ⟨⟨hremembers.workspaces workspace hpossible, id, rfl, hstored⟩,
                hremembers.executions⟩, hremembers.ids⟩
      | _ => exact hends.elim
  | logInput self artifact id =>
      cases ending with
      | logged result m => exact hlogged _ _ _ _ _ _ hends
      | _ => exact hends.elim
  | logOutput self artifact id =>
      cases ending with
      | logged result m => exact hlogged _ _ _ _ _ _ hends
      | _ => exact hends.elim
  | list loads workspace artifactTypeName =>
      cases ending with
      | listed result => exact hremembers
      | _ => exact hends.elim
  | send request =>
      cases ending with
      | answered answer => exact hremembers
      | _ => exact hends.elim

/-! ## Every task ends -/

/-- A handler, as one of the programs at work. -/
theorem working_handle (hE : Sound E) {request : Request}
    {post : Except GoError request.Response → Store → Prop}
    (hhandle : Meanwhile E P post (handle request).run s) :
    Working E P post (handle request).run s := by
  have hnumbered : (handle request).run.Safe E (fun t => t.contents.Consistent ∧ P t) Store.Grows
      (fun s t => s.contents.Numbered → t.contents.Numbered) (fun _ _ => True) s := by
    have huses : (handle request).run.Uses (I := api) fun _ => True :=
      Uses.mono (fun _ _ => trivial) (uses_handle request)
    exact Safe.of_uses huses (fun op s reply t _ _ heffect => numbered_call hE op heffect) s
  exact (hhandle.and hnumbered).weaken (fun t hinv => ⟨hinv.1.consistent, hinv.2⟩)
    (fun _ _ => id) (fun _ _ hguar => hguar) fun _ _ _ hpost => hpost.1

theorem working_program (hE : Obliging E) (hremembers : Remembers memory s)
    (hpossible : task.Possible memory) :
    Working E P (Ends dumps task) (task.program dumps) s := by
  have hlogged : ∀ (type : EventType) (self : Execution) (artifact : LoggedObject)
      (id : Option Int), type ≠ .unknown → self ∈ memory.executions →
        (∀ i, id = some i → i ∈ memory.ids) →
        Working E P (fun ending u => LogAsEnds dumps type self artifact id ending.1 ending.2 u)
          ((self.logAs type (some (artifact.object dumps))).run.run id) s := by
    intro type self artifact id htype hself hid
    obtain ⟨⟨w, hw⟩, n, hn, hstored⟩ := hremembers.executions self hself
    exact working_logAs hE hw htype hn hstored fun i hi => hremembers.ids i (hid i hi)
  cases task with
  | newWorkspace args =>
      exact Safe.map grows_refl grows_trans (workingOk_newWorkspace hE.toLawful.sound args)
  | newExecution name workspace run description createTime =>
      obtain ⟨w, hw⟩ := hremembers.workspaces workspace hpossible
      exact Safe.map grows_refl grows_trans
        (working_newExecution hE hw name run description createTime)
  | logInput self artifact id =>
      exact Safe.map grows_refl grows_trans
        (hlogged .input self artifact id (by decide) hpossible.1 hpossible.2)
  | logOutput self artifact id =>
      exact Safe.map grows_refl grows_trans
        (hlogged .output self artifact id (by decide) hpossible.1 hpossible.2)
  | list loads workspace artifactTypeName =>
      refine Safe.map grows_refl grows_trans
        ((working_list hE loads workspace artifactTypeName).mono ?_)
      rintro result t - ⟨pbs, rfl, hstored, -⟩
      exact listingEnds_of_collect hstored
  | send request =>
      have hsound := hE.toLawful.sound
      exact Safe.map grows_refl grows_trans
        ((working_handle hsound (meanwhile_handle hsound request)).mono fun reply _ _ hkept =>
          ⟨reply, rfl, hkept⟩)

/-! ## Every interleaving -/

/-- All users are served, while `P` holds of the store, and their tasks establish `Q`. -/
def serving {ι : Type} (dumps : Dumps) (P : Store → Prop)
    (Q : ι → Task → Ending → Store → Prop) : Clients.Outline Store ι Memory Task Ending where
  inv s := Serving s ∧ P s
  guar _ := AddsOnly
  rely _ := Store.Grows
  knows _ memory s := Remembers memory s
  post i memory task ending s :=
    (task.Possible memory ∧ Remembers memory s ∧ Ends dumps task ending s) ∧ Q i task ending s

theorem serving_valid {ι : Type} {Q : ι → Task → Ending → Store → Prop} (hE : Obliging E)
    (hP : ∀ s t, s.Grows t → P s → P t)
    (hQ : ∀ i memory task s, task.Possible memory → Remembers memory s →
      Working E P (Q i task) (task.program dumps) s) :
    (serving dumps P Q).Valid (users dumps ι) E AddsOnly where
  rely_refl _ := grows_refl
  rely_trans _ := grows_trans
  guar_inv _ s t hinv hadds := ⟨hadds.serving hinv.1, hP s t hadds.1.1 hinv.2⟩
  guar_rely _ _ _ _ _ _ hadds := hadds.1.1
  env_inv s t hinv hadds := ⟨hadds.serving hinv.1, hP s t hadds.1.1 hinv.2⟩
  env_rely _ _ _ _ hadds := hadds.1.1
  knows_stable _ _ _ _ hgrows hremembers := hremembers.grows hgrows
  body_safe i memory task s hready hremembers _ := by
    have hends : Working E P (Ends dumps task) (task.program dumps) s :=
      working_program hE hremembers hready
    refine ((Working.grown hends).and (hQ i memory task s hready hremembers)).weaken
      (fun _ hinv => hinv) (fun _ _ hgrows => hgrows) (fun _ _ hguar => hguar.1) ?_
    rintro ending t - ⟨⟨hends, hgrows⟩, hQ⟩
    exact ⟨⟨hready, hremembers.grows hgrows, hends⟩, hQ⟩
  resume_knows _ _ _ _ _ _ hpost := hpost.1.2.1.after hpost.1.1 hpost.1.2.2

/-! ## A server that has registered its schemas -/

theorem AddsOnly.trans {s t u : Store} (hfirst : AddsOnly s t) (hsecond : AddsOnly t u) :
    AddsOnly s u :=
  ⟨⟨grows_trans s t u hfirst.1.1 hsecond.1.1, hsecond.1.2 ∘ hfirst.1.2⟩, hsecond.2 ∘ hfirst.2⟩

/-- After a registration the store offers the shipped types, and has lost nothing. -/
theorem serving_of_registered (hE : Lawful E) (hconsistent : s.contents.Consistent)
    (hnumbered : s.contents.Numbered) {depth : Nat} {order types : List String}
    (hvisits : Visits shipped order)
    (hrun : (registerSchemas (.ok shipped) depth order).run.Runs E s (.ok types) t) :
    Serving t ∧ s.Grows t := by
  have hadds : AddsOnly s t := by
    have huses : (registerSchemas (.ok shipped) depth order).run.Uses (I := api) Call.Inserts :=
      uses_registerIn (fun op => inserts_of_isRead) fun _ _ _ => trivial
    refine hrun.preserves (P := AddsOnly s) huses ?_ ?_
    · exact fun op u reply v hinserts heffect hu =>
        hu.trans (addsOnly_call hE.sound op hinserts heffect)
    · exact ⟨⟨grows_refl s, id⟩, id⟩
  exact ⟨⟨hadds.1.2 hconsistent, hadds.2 hnumbered, offers_of_registered hE hvisits hrun⟩,
    hadds.1.1⟩

/-- The server has started, and every user has what he had before. -/
def started {ι : Type} (memories : ι → Memory) (s : Store) :
    Config api Store ι Memory Task Ending := ⟨s, fun i => .idle (memories i)⟩

section Sharing

variable {ι : Type} [DecidableEq ι] {memories : ι → Memory}
  {c d : Config api Store ι Memory Task Ending}

/-- What the users of a server may reach that has registered the shipped schemas, in any
order, in a store that has everything they remember. -/
inductive Reached (E : Effect api Store) (dumps : Dumps) (memories : ι → Memory) :
    Config api Store ι Memory Task Ending → Prop
  | intro {c : Config api Store ι Memory Task Ending} {s t : Store} {depth : Nat}
      {order types : List String} (hconsistent : s.contents.Consistent)
      (hnumbered : s.contents.Numbered) (hremembers : ∀ i, Remembers (memories i) s)
      (hvisits : Visits shipped order)
      (hregistered : (registerSchemas (.ok shipped) depth order).run.Runs E s (.ok types) t)
      (hsteps : (users dumps ι).Steps E AddsOnly (started memories t) c) :
      Reached E dumps memories c

theorem Reached.trans (hreached : Reached E dumps memories c)
    (hlater : (users dumps ι).Steps E AddsOnly c d) : Reached E dumps memories d := by
  obtain ⟨hconsistent, hnumbered, hremembers, hvisits, hregistered, hsteps⟩ := hreached
  exact ⟨hconsistent, hnumbered, hremembers, hvisits, hregistered, hsteps.trans hlater⟩

/-- What every task establishes, is established in every such configuration. -/
theorem Reached.holds {Q : ι → Task → Ending → Store → Prop} (hE : Obliging E)
    (hQ : ∀ i memory task s, task.Possible memory → Remembers memory s →
      Working E (fun _ => True) (Q i task) (task.program dumps) s)
    (hreached : Reached E dumps memories c) : (serving dumps (fun _ => True) Q).Holds E c := by
  obtain ⟨hconsistent, hnumbered, hremembers, hvisits, hregistered, hsteps⟩ := hreached
  obtain ⟨hserving, hgrows⟩ :=
    serving_of_registered hE.toLawful hconsistent hnumbered hvisits hregistered
  exact Clients.Steps.holds (serving_valid hE (fun _ _ _ _ => trivial) hQ) hsteps
    ⟨⟨hserving, trivial⟩, fun i => (hremembers i).grows hgrows⟩

/-- How any task has ended. -/
theorem Reached.ends {Q : ι → Task → Ending → Store → Prop} (hE : Obliging E)
    (hQ : ∀ i memory task s, task.Possible memory → Remembers memory s →
      Working E (fun _ => True) (Q i task) (task.program dumps) s)
    (hreached : Reached E dumps memories c) {i : ι}
    (hphase : c.phase i = .busy memory task (.done ending)) :
    (task.Possible memory ∧ Remembers memory c.state ∧ Ends dumps task ending c.state) ∧
      Q i task ending c.state :=
  (hreached.holds hE hQ).post (serving_valid hE (fun _ _ _ _ => trivial) hQ) hphase

/-- Nothing more than how tasks end. -/
theorem working_anything (hE : Obliging E) (memory : Memory) (task : Task) (s : Store)
    (hpossible : task.Possible memory) (hremembers : Remembers memory s) :
    Working E P (fun _ _ => True) (task.program dumps) s :=
  (working_program hE hremembers hpossible).mono fun _ _ _ _ => trivial

/-- **All users are served.** Whatever the others do, and whatever is added to the store from
outside: a task that has ended has ended as it should. An execution has been constructed, or
an artifact object and its event have been logged, and all of it is in the store, unless
every id is taken. A list has records of stored artifacts only, and raises an exception only
for one of these. -/
theorem users_served (hE : Obliging E) (hreached : Reached E dumps memories c) {i : ι}
    (hphase : c.phase i = .busy memory task (.done ending)) :
    Ends dumps task ending c.state :=
  (hreached.ends (Q := fun _ _ _ _ => True) hE (fun _ => working_anything hE) hphase).1.2.2

end Sharing

/-! ## A user alone -/

theorem willing_obliging : Obliging willing where
  toLawful := willing_available.toLawful
  refuses _ _ _ _ heffect := heffect.2

/-- Run a program in memory, unless a call is refused. -/
def runAccepted {α : Type} : Program api α → Store → Option (α × Store)
  | .done a, s => some (a, s)
  | .call op next, s =>
      match inMemory op s with
      | (.ok result, t) => runAccepted (next (.ok result)) t
      | (.error _, _) => none

/-- The same, unless the program raises an exception. -/
def runOk {ε α : Type} (x : ExceptT ε (Program api) α) (s : Store) : Option (α × Store) :=
  match runAccepted x.run s with
  | some (.ok a, t) => some (a, t)
  | _ => none

/-- What is accepted in memory may happen in any store that refuses only what it must. -/
theorem runs_of_runAccepted {α : Type} {p : Program api α} {a : α}
    (hrun : runAccepted p s = some (a, t)) : p.Runs willing s a t := by
  induction p generalizing s with
  | done b =>
      obtain ⟨rfl, rfl⟩ := Prod.mk.inj (Option.some.inj hrun)
      exact runs_pure.mpr ⟨rfl, rfl⟩
  | call op next ih =>
      rw [runAccepted] at hrun
      split at hrun
      next result u hcall =>
        have heffect : willing op s (.ok result) u :=
          inMemory_available.accepted op s u result hcall
        unfold Program.Runs
        exact ⟨.ok result, u, heffect, ih _ hrun⟩
      next => cases hrun

theorem runAccepted_map {α β : Type} {f : α → β} {p : Program api α} {a : α}
    (hrun : runAccepted p s = some (a, t)) : runAccepted (f <$> p) s = some (f a, t) := by
  induction p generalizing s with
  | done b =>
      obtain ⟨rfl, rfl⟩ := Prod.mk.inj (Option.some.inj hrun)
      rfl
  | call op next ih =>
      show runAccepted (.call op fun reply => f <$> next reply) s = _
      rw [runAccepted] at hrun ⊢
      split at hrun
      next result u hcall => exact ih _ hrun
      next => cases hrun

theorem runAccepted_of_runOk {ε α : Type} {x : ExceptT ε (Program api) α} {a : α}
    (hrun : runOk x s = some (a, t)) : runAccepted x.run s = some (.ok a, t) := by
  unfold runOk at hrun
  split at hrun
  next h =>
    cases hrun
    exact h
  next => cases hrun

/-- A user performs a task while the others wait. -/
theorem steps_of_runAccepted {ι : Type} [DecidableEq ι] {c : Config api Store ι Memory Task Ending}
    {i : ι} (hphase : c.phase i = .idle memory) (hpossible : task.Possible memory)
    (hrun : runAccepted (task.program dumps) c.state = some (ending, t)) :
    (users dumps ι).Steps willing AddsOnly c
      ⟨t, Function.update c.phase i (.busy memory task (.done ending))⟩ :=
  Clients.Steps.of_runs (users dumps ι) AddsOnly i memory task hphase hpossible
    (runs_of_runAccepted hrun)

/-- The user goes on with what he has got. -/
theorem steps_finish {ι : Type} [DecidableEq ι] {c : Config api Store ι Memory Task Ending}
    {i : ι} (hphase : c.phase i = .idle memory) (hpossible : task.Possible memory)
    (hrun : runAccepted (task.program dumps) c.state = some (ending, t)) :
    (users dumps ι).Steps willing AddsOnly c
      ⟨t, Function.update c.phase i (.idle (memory.after ending))⟩ := by
  have hfinish : (users dumps ι).Step willing AddsOnly
      ⟨t, Function.update c.phase i (.busy memory task (.done ending))⟩ _ :=
    .finish i memory task ending (Function.update_self ..)
  simp only [Function.update_idem] at hfinish
  exact (steps_of_runAccepted hphase hpossible hrun).tail hfinish

/-- A user who has nothing yet constructs a workspace and an execution in it. -/
theorem steps_construct (dumps : Dumps) {ι : Type} [DecidableEq ι]
    {c : Config api Store ι Memory Task Ending} {i : ι} {args : WorkspaceArgs}
    {name createTime : String} {w : Workspace} {e : Execution} {u : Store}
    (hphase : c.phase i = .idle ⟨[], [], []⟩)
    (hworkspace : runOk (newWorkspace args) c.state = some (w, t))
    (hexecution : runOk (newExecution (some name) (some w) none none createTime) t = some (e, u)) :
    (users dumps ι).Steps willing AddsOnly c
      ⟨u, Function.update c.phase i (.idle ⟨[w], [e], []⟩)⟩ := by
  have hw : runAccepted ((Task.newWorkspace args).program dumps) c.state =
      some (.workspace (.ok w), t) := runAccepted_map (runAccepted_of_runOk hworkspace)
  have he : runAccepted ((Task.newExecution name w none none createTime).program dumps) t =
      some (.execution (.ok e), u) := runAccepted_map (runAccepted_of_runOk hexecution)
  have hfirst := steps_finish hphase
    (show Task.Possible ⟨[], [], []⟩ (.newWorkspace args) from trivial) hw
  have hsecond := steps_finish
    (c := ⟨t, Function.update c.phase i (.idle ⟨[w], [], []⟩)⟩) (Function.update_self ..)
    (show Task.Possible ⟨[w], [], []⟩ (.newExecution name w none none createTime) from
      List.mem_singleton_self w) he
  rw [Function.update_idem] at hsecond
  exact hfirst.trans hsecond

def shippedOrder : List String := shippedSchemas.map SchemaJSON.id

def lab : WorkspaceArgs where
  hasStore := true
  name := some "lab"
  description := none
  labels := none
  reuseWorkspaceIfExists := true
  backendUrlPrefix := ""
  retries _ := 2

def digits : LoggedObject := .model
  { workspace := .none, name := "digits", description := none, owner := none, uri := "gs://digits",
    labels := .none, createTime := "t1", kwargs := [], version := some "v1", modelType := none,
    trainingFramework := .none, hyperparameters := .none }

/-- The JSON text of the model, which may be described. -/
def digitsText (description createTime : String) : String :=
  "\x7b\"workspace\": null, \"name\": \"digits\", \"description\": " ++ description ++
    ", \"owner\": null, \"uri\": \"gs://digits\", \"version\": \"v1\", " ++
    "\"model_type\": null, \"training_framework\": null, \"hyperparameters\": null, " ++
    "\"labels\": null, \"id\": null, \"create_time\": \"" ++ createTime ++
    "\", \"kwargs\": \x7b\x7d\x7d"

/-- Writes the model as it is made first, and as it is described later. -/
def dumpsDigits : Dumps
  | .dict entries =>
      match entries.lookup "description" with
      | some (.str text) => digitsText ("\"" ++ text ++ "\"") "t2"
      | _ => digitsText "null" "t1"
  | _ => "null"

/-- Reads the model as it is made first, and no other text. -/
def loadsDigits : Loads := fun text =>
  if text = digitsText "null" "t1" then .ok (.dict digits.dict)
  else .error "Expecting value: line 1 column 1 (char 0)"

/-- Another object for the model: it is described, and was made later. -/
def digitsAgain : LoggedObject := .model
  { workspace := .none, name := "digits", description := some "again", owner := none,
    uri := "gs://digits", labels := .none, createTime := "t2", kwargs := [], version := some "v1",
    modelType := none, trainingFramework := .none, hyperparameters := .none }

/-- A second user has an execution when the first one constructs his own and logs a model as its
output; then the second logs it, too, or lists the models. -/
def logDigits : Option (Option Int × Option Int × Nat × String × String) := do
  let (_, s) ← runOk (registerSchemas (.ok shipped) 3 shippedOrder) Store.empty
  let (w', s) ← runOk (newWorkspace lab) s
  let (e', s) ← runOk (newExecution (some "evaluate") (some w') none none "t0") s
  let (w, s) ← runOk (newWorkspace lab) s
  let (e, s) ← runOk (newExecution (some "train") (some w) none none "t1") s
  let ((_, id), s) ← runAccepted ((e.logOutput (some (digits.object dumpsDigits))).run.run none) s
  let ((_, id'), _) ←
    runAccepted ((e'.logInput (some (digitsAgain.object dumpsDigits))).run.run none) s
  let (records, _) ← runOk (w'.list loadsDigits none) s
  return (id, id', records.length, e.workspace.name, e'.workspace.name)

theorem logDigits_eq : logDigits = some (some 1, some 1, 1, "lab", "lab") := by decide +kernel

/-- Nobody has anything. -/
def emptyHanded : Nat → Memory := fun _ => ⟨[], [], []⟩

theorem visits_shippedOrder : Visits shipped shippedOrder :=
  ⟨by decide +kernel, fun id => by rw [mem_shipped, shippedOrder, List.mem_map]⟩

theorem remembers_emptyHanded (i : Nat) (s : Store) : Remembers (emptyHanded i) s where
  workspaces _ hw := absurd hw List.not_mem_nil
  executions _ he := absurd he List.not_mem_nil
  ids _ hid := absurd hid List.not_mem_nil

/-- The first of many users has logged the model, and the second is about to log it, or to list
the models; the others wait. -/
theorem reached_logged : ∃ memory e w' e', ∃ c : Config api Store Nat Memory Task Ending,
    Reached willing dumpsDigits emptyHanded c ∧
      c.phase 0 = .busy memory (.logOutput e digits none) (.done (.logged (.ok ()) (some 1))) ∧
      c.phase 1 = .idle ⟨[w'], [e'], []⟩ ∧ (∀ i, i ≠ 0 → ∃ memory, c.phase i = .idle memory) ∧
      e.workspace.name = "lab" ∧ e'.workspace.name = "lab" ∧
      (∃ result t, runAccepted ((Task.logInput e' digitsAgain none).program dumpsDigits) c.state =
        some (.logged result (some 1), t)) ∧
      ∃ records t, runAccepted ((Task.list loadsDigits w' none).program dumpsDigits) c.state =
        some (.listed (.ok records), t) := by
  have hlogged := logDigits_eq
  simp only [logDigits, Option.bind_eq_bind, Option.bind_eq_some_iff] at hlogged
  obtain ⟨⟨types, s₀⟩, hregister, ⟨w', s₁⟩, hworkspace', ⟨e', s₂⟩, hexecution', ⟨w, s₃⟩,
    hworkspace, ⟨e, s₄⟩, hexecution, ⟨⟨result, id⟩, s₅⟩, hlog, ⟨⟨result', id'⟩, s₆⟩, hlog',
    ⟨records, s₇⟩, hlist, hresult⟩ := hlogged
  simp only [Option.pure_def, Option.some.injEq, Prod.mk.injEq] at hresult
  obtain ⟨rfl, rfl, -, hlab, hlab'⟩ := hresult
  have hl : runAccepted ((Task.logOutput e digits none).program dumpsDigits) s₄ =
      some (.logged result (some 1), s₅) := runAccepted_map hlog
  have hsecond := steps_construct dumpsDigits (c := started emptyHanded s₀) (i := 1) rfl hworkspace'
    hexecution'
  have hfirst := hsecond.trans (steps_construct dumpsDigits (i := 0) rfl hworkspace hexecution)
  have hboth := hfirst.trans (steps_of_runAccepted (i := 0) rfl
    (show Task.Possible ⟨[w], [e], []⟩ (.logOutput e digits none) from
      ⟨List.mem_singleton_self e, fun _ hid => by cases hid⟩) hl)
  have hnumbered : Store.empty.contents.Numbered := fun _ _ hx => absurd hx List.not_mem_nil
  have hreached := Reached.intro consistent_empty hnumbered (fun i => remembers_emptyHanded i _)
    visits_shippedOrder (runs_of_runAccepted (runAccepted_of_runOk hregister)) hboth
  obtain rfl : result = .ok () :=
    LogEnds.returns (users_served willing_obliging hreached (i := 0) rfl).1
  refine ⟨_, e, w', e', _, hreached, rfl, rfl, fun i hi => ?_, hlab, hlab', ⟨result', s₆,
    runAccepted_map hlog'⟩, records, s₇, runAccepted_map (runAccepted_of_runOk hlist)⟩
  by_cases hone : i = 1
  · subst hone
    exact ⟨_, rfl⟩
  · simp only [Function.update_of_ne hi, Function.update_of_ne hone]
    exact ⟨_, rfl⟩

/-- The model is stored, and so is the event. -/
theorem users_served_digits : ∃ self, ∃ c : Config api Store Nat Memory Task Ending,
    Reached willing dumpsDigits emptyHanded c ∧
      LogAsEnds dumpsDigits .output self digits none (.ok ()) (some 1) c.state := by
  obtain ⟨memory, self, w', e', c, hreached, hphase, -⟩ := reached_logged
  exact ⟨self, c, hreached, users_served willing_obliging hreached hphase⟩

end KfMetadata.Sdk
