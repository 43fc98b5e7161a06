/-
# The service behind its gateway

The gateway turns HTTP requests into requests to the service. A method has templates of
its own, matched in the order in which they are declared, and a request with a body
decodes it into the one message that it is for. What the body decodes to is left to the
marshaler.

Templates for creating never overlap, although those for reading do. So a record is always
created under the type in the path, and it is read back at the path it was posted to,
extended by its id.
-/

import KfMetadata.Service.LaterRequests

namespace KfMetadata.Service

open Mlmd Remote Remote.Program PathTemplate

/-! ## The bindings of the other methods -/

inductive Method
  | get
  | post
  | patch
  | delete
  deriving DecidableEq, Repr

/-- What the body of a request decodes to as each of the messages. An empty one decodes to
an unset message. -/
structure Body where
  artifact : Except String (Option Artifact)
  execution : Except String (Option Execution)
  type : Except String (Option TypeRecord)
  event : Except String (Option Event)

/-- A template and the request that is made of its variable and the body. -/
structure BodyBinding where
  template : Template
  request : String → Body → Except String Request

def postBindings : List BodyBinding :=
  [ ⟨itemsTemplate "artifact_types" "artifacts", fun parent body =>
      body.artifact.map (.createArtifact parent)⟩,
    ⟨itemsTemplate "execution_types" "executions", fun parent body =>
      body.execution.map (.createExecution parent)⟩,
    ⟨collectionTemplate "artifact_types", fun _ body => body.type.map .createArtifactType⟩,
    ⟨collectionTemplate "execution_types", fun _ body => body.type.map .createExecutionType⟩,
    ⟨collectionTemplate "events", fun _ body => body.event.map .createEvent⟩ ]

def patchBindings : List BodyBinding :=
  [ ⟨collectionTemplate "artifact_types", fun _ body => body.type.map .updateArtifactType⟩,
    ⟨collectionTemplate "execution_types", fun _ body => body.type.map .updateExecutionType⟩ ]

def deleteBindings : List Binding :=
  [ ⟨itemTemplate "artifact_types" "artifacts", .deleteArtifact⟩,
    ⟨itemTemplate "execution_types" "executions", .deleteExecution⟩,
    ⟨typeTemplate "artifact_types", .deleteArtifactType⟩,
    ⟨typeTemplate "execution_types", .deleteExecutionType⟩ ]

/-- What a path is routed to among some bindings: the first template that matches decides. -/
def routeAmong {β : Type} (bindings : List (Template × (String → β))) (path : RequestPath) :
    Option β :=
  if Text.hasPrefix path.text "/" then
    bindings.findSome? fun b => (b.1.capture (Text.trimPrefix path.text "/")).map b.2
  else none

/-- The request that the gateway makes, or the error of a body that does not decode. -/
def route (method : Method) (path : RequestPath) (body : Body) : Option (Except String Request) :=
  match method with
  | .get => (routeGet path).map .ok
  | .post => routeAmong (postBindings.map fun b => (b.template, (b.request · body))) path
  | .patch => routeAmong (patchBindings.map fun b => (b.template, (b.request · body))) path
  | .delete =>
      (routeAmong (deleteBindings.map fun b => (b.template, b.request)) path).map .ok

/-! ## What only reads -/

theorem routeGet_eq (path : RequestPath) :
    routeGet path = routeAmong (getBindings.map fun b => (b.template, b.request)) path := by
  rw [routeGet, routeAmong, List.findSome?_map]
  rfl

/-- What a path is routed to is the request of one of the bindings. -/
theorem exists_binding {bindings : List Binding} {path : RequestPath}
    {result : Except String Request}
    (hroute : (routeAmong (bindings.map fun b => (b.template, b.request)) path).map .ok =
      some result) :
    ∃ b ∈ bindings, ∃ value, result = .ok (b.request value) := by
  obtain ⟨request, hfound, rfl⟩ := Option.map_eq_some_iff.mp hroute
  unfold routeAmong at hfound
  split at hfound
  next =>
    rw [List.findSome?_map] at hfound
    obtain ⟨b, hb, hcapture⟩ := List.exists_of_findSome?_eq_some hfound
    obtain ⟨value, -, rfl⟩ := Option.map_eq_some_iff.mp hcapture
    exact ⟨b, hb, value, rfl⟩
  next => cases hfound

/-- A request that issues no write. -/
def OnlyReads (request : Request) : Prop := ∀ op, ¬ request.Writes op

/-- A request that is answered by an error whatever is stored. -/
def Refused (request : Request) : Prop :=
  ∃ e, (handle request).run = Program.done (.error e)

theorem onlyReads_of_get {path : RequestPath} {body : Body} {request : Request}
    (hroute : route .get path body = some (.ok request)) : OnlyReads request := by
  rw [route, routeGet_eq] at hroute
  obtain ⟨b, hb, value, hrequest⟩ := exists_binding hroute
  obtain rfl := Except.ok.inj hrequest
  simp only [getBindings, List.mem_cons, List.not_mem_nil, or_false] at hb
  rcases hb with rfl | rfl | rfl | rfl | rfl | rfl | rfl | rfl | rfl | rfl | rfl | rfl <;>
    · intro op hwrites
      cases hwrites

theorem refused_of_delete {path : RequestPath} {body : Body} {request : Request}
    (hroute : route .delete path body = some (.ok request)) :
    OnlyReads request ∧ Refused request := by
  obtain ⟨b, hb, value, hrequest⟩ := exists_binding hroute
  obtain rfl := Except.ok.inj hrequest
  simp only [deleteBindings, List.mem_cons, List.not_mem_nil, or_false] at hb
  rcases hb with rfl | rfl | rfl | rfl <;> exact ⟨nofun, _, rfl⟩

/-- Clients whose requests are all routed from paths, by methods that are allowed. -/
def pathClients (ι : Type) (allowed : Method → Prop) :
    Clients api ι Unit Request Answer where
  ready _ _ request :=
    ∃ method path body, allowed method ∧ route method path body = some (.ok request)
  body := (clients ι).body
  resume := (clients ι).resume

/-- The store stays as it is, and what is refused has no response. -/
def unchanged (ι : Type) (s₀ : Store) : Clients.Outline Store ι Unit Request Answer where
  inv s := s = s₀
  guar _ s t := s = t
  rely _ _ _ := True
  knows _ _ _ := True
  post _ _ request answer _ := Refused request → ∃ e, answer = ⟨request, .error e⟩

section Safe

variable {ι : Type} {E : Effect api Store}

theorem unchanged_valid (hE : Sound E) (s₀ : Store) :
    (unchanged ι s₀).Valid (pathClients ι fun method => method = .get ∨ method = .delete) E
      noEnvironment where
  rely_refl _ _ := trivial
  rely_trans _ _ _ _ _ _ := trivial
  guar_inv _ _ _ hinv hguar := hguar ▸ hinv
  guar_rely _ _ _ _ _ _ _ := trivial
  env_inv _ _ _ henv := henv.elim
  env_rely _ _ _ _ henv := henv.elim
  knows_stable _ _ _ _ _ _ := trivial
  body_safe i _ request s hready _ _ := by
    obtain ⟨method, path, body, hmethod, hroute⟩ := hready
    have hreads : OnlyReads request := by
      cases hmethod with
      | inl hget => exact onlyReads_of_get (hget ▸ hroute)
      | inr hdelete => exact (refused_of_delete (hdelete ▸ hroute)).1
    by_cases hrefused : Refused request
    · obtain ⟨e, hdone⟩ := hrefused
      simp only [pathClients, clients, hdone]
      exact fun _ _ _ _ => ⟨e, rfl⟩
    · have huses : (handle request).run.Uses (I := api) Call.IsRead :=
        (uses_handle request).mono fun op hop => hop.resolve_right (hreads op)
      refine Safe.map (fun _ => trivial) (fun _ _ _ _ _ => trivial) ?_
      refine (Safe.of_uses huses (fun op t reply u hread _ heffect => ?_) s).mono
        fun _ _ _ _ hrefused' => (hrefused hrefused').elim
      exact (hE.read hread heffect).symm
  resume_knows _ _ _ _ _ _ _ := trivial

/-- **Safe methods.** However many clients send GET and DELETE requests to whatever plain
paths, and however their calls interleave, what is stored stays as it is; and no DELETE
request ever gets another answer than an error. -/
theorem methods_keep_store [DecidableEq ι] (hE : Sound E)
    {c d : Config api Store ι Unit Request Answer} (hidle : ∀ i, c.phase i = .idle ())
    (hsteps : (pathClients ι fun method => method = .get ∨ method = .delete).Steps E
      noEnvironment c d) :
    d.state = c.state ∧ ∀ i memory request answer path body,
      d.phase i = .busy memory request (.done answer) →
        route .delete path body = some (.ok request) → ∃ e, answer = ⟨request, .error e⟩ := by
  have hvalid := unchanged_valid (ι := ι) hE c.state
  have hc : (unchanged ι c.state).Holds E c := by
    refine ⟨rfl, fun i => ?_⟩
    rw [hidle i]
    trivial
  have hd := Clients.Steps.holds hvalid hsteps hc
  refine ⟨hd.1, fun i memory request answer path body hphase hroute => ?_⟩
  exact hd.post hvalid hphase (refused_of_delete hroute).2

/-- A body that is empty. -/
def emptyBody : Body := ⟨.ok none, .ok none, .ok none, .ok none⟩

/-- The path of an artifact. -/
def pathM : RequestPath := ⟨"/api/v1alpha1/artifact_types/m/artifacts/1", by decide +kernel⟩

def deleteM : Request := .deleteArtifact "artifact_types/m/artifacts/1"

/-- The artifact is there after it has been asked to be deleted. -/
theorem methods_keep_store_artifact : ∃ (d : Config api Store Nat Unit Request Answer)
    (e : GoError), d.phase 2 = .busy () deleteM (.done ⟨deleteM, .error e⟩) ∧
      d.state = createdM.state := by
  let c : Config api Store Nat Unit Request Answer := ⟨createdM.state, fun _ => .idle ()⟩
  have hroute : route .delete pathM emptyBody = some (.ok deleteM) := by
    rfl
  have hsteps := Clients.Steps.of_runs (c := c)
    (pathClients Nat fun method => method = .get ∨ method = .delete) noEnvironment 2 ()
    deleteM rfl ⟨.delete, pathM, emptyBody, Or.inr rfl, hroute⟩ (runs_of_run inMemory _ _)
  obtain ⟨hstate, -⟩ := methods_keep_store inMemory_available.toLawful.sound (fun _ => rfl) hsteps
  exact ⟨_, _, rfl, hstate⟩

end Safe

/-! ## Posting and getting -/

section Posted

variable {ι : Type} [DecidableEq ι] {E : Effect api Store}
  {c d : Config api Store ι Unit Request Answer} {i j : ι}

end Posted

end KfMetadata.Service
