/-
# Constructing workspaces at the same time

Any number of clients construct workspaces on one healthy store, their calls interleaved
in any way. A construction that finds no context of its name goes on to put one, and
nothing keeps another client from putting a context of this name in between: then the
put is refused, at every attempt, and the construction raises an exception although the
workspace is there.

Constructions agree as long as no two of the same name are between their lookup and the
end of their put at the same time.
-/

import KfMetadata.Library.ConcurrentClients
import KfMetadata.Mlmd.InMemory
import KfMetadata.Sdk.Workspaces

namespace KfMetadata.Sdk

open Mlmd Remote Remote.Program

/-- A construction of a workspace of a name, which reuses what is there. -/
structure Creation where
  name : String
  description : Option String
  labels : Option String
  retries : Call → Nat

def Creation.args (a : Creation) : WorkspaceArgs where
  hasStore := true
  name := some a.name
  description := a.description
  labels := a.labels
  reuseWorkspaceIfExists := true
  backendUrlPrefix := ""
  retries := a.retries

/-- What a construction ends in. -/
abbrev Constructed : Type := Except PyError Workspace

variable {ι : Type}

/-- Clients that construct one workspace each; a client remembers what it has got. -/
def constructions (creation : ι → Creation) :
    Clients api ι (Option Constructed) Unit Constructed where
  ready _ memory _ := memory = none
  body i _ _ := (newWorkspace (creation i).args).run
  resume _ _ _ answer := some answer

/-- No construction has been started. -/
def beginning (s : Store) : Config api Store ι (Option Constructed) Unit Constructed :=
  ⟨s, fun _ => .idle none⟩

/-- Nothing but the clients changes the store. -/
def nothingElse (_ _ : Store) : Prop := False

/-- What a client has got. -/
def gotten : Phase api (Option Constructed) Unit Constructed → Option Constructed
  | .idle memory => memory
  | .busy _ _ (.done answer) => some answer
  | .busy _ _ (.call _ _) => none

/-- The client has found no context of its name, and is about to put one or its type. -/
def Creating (phase : Phase api (Option Constructed) Unit Constructed) : Prop :=
  ∃ memory job op next, phase = .busy memory job (.call op next) ∧ ¬ Call.IsRead op

/-- No two clients are creating a workspace of one name. -/
def Exclusive (creation : ι → Creation)
    (c : Config api Store ι (Option Constructed) Unit Constructed) : Prop :=
  ∀ i j, i ≠ j → (creation i).name = (creation j).name →
    ¬ (Creating (c.phase i) ∧ Creating (c.phase j))

/-- The constructions agree with each other and with the store. -/
structure Agree (creation : ι → Creation)
    (c : Config api Store ι (Option Constructed) Unit Constructed) : Prop where
  /-- Every construction returns. -/
  returned : ∀ i answer, gotten (c.phase i) = some answer → ∃ ws, answer = .ok ws
  /-- Those of one name get one id, those of different names get different ones. -/
  ids : ∀ i j ws ws', gotten (c.phase i) = some (.ok ws) → gotten (c.phase j) = some (.ok ws') →
    (ws.contextId = ws'.contextId ↔ (creation i).name = (creation j).name)
  /-- The store has one workspace of each name. -/
  names : ((workspaces c.state.contents).map contextName).Nodup

/-! ## One construction -/

/-- The context of a workspace is stored under its name. -/
def Stands (c : Contents) (name : String) (ws : Workspace) : Prop :=
  ∃ x ∈ workspaces c, contextName x = name ∧ x.id = some ws.contextId

/-- What is left of a construction, with what it knows of the store. -/
inductive Point (a : Creation) (c : Contents) : Program api Constructed → Prop
  | lookup : Point a c (newWorkspace a.args).run
  | putType (hnew : ¬ Named c a.name) :
      Point a c (createContext a.args a.name >>= fun id => pure ⟨a.name, id⟩).run
  | putContext (type : StoredType) (htype : c.findType .context contextTypeName = some type)
      (hnew : ¬ Named c a.name) :
      Point a c (addContext a.args a.name type.id >>= fun id => pure ⟨a.name, id⟩).run
  | done (ws : Workspace) (hstands : Stands c a.name ws) : Point a c (.done (.ok ws))

variable {a : Creation}

theorem callOr_run (op : Call) : (callOr PyError.rpc op).run =
    .call op fun reply : Except String op.Result => .done (reply.mapError .rpc) := rfl

/-- The lookup is the first call of a construction. -/
theorem newWorkspace_run (a : Creation) :
    ∃ next, (newWorkspace a.args).run =
        .call (.getItemsByType .context contextTypeName) next ∧
      ∀ contexts : List Context,
        (∀ ctx, contexts.find? (fun ctx => contextName ctx = a.name) = some ctx →
          next (.ok contexts) = .done (.ok ⟨a.name, ctx.id.getD 0⟩)) ∧
        (contexts.find? (fun ctx => contextName ctx = a.name) = none →
          next (.ok contexts) =
            (createContext a.args a.name >>= fun id => pure ⟨a.name, id⟩).run) := by
  have hprogram : newWorkspace a.args = getContextId a.args a.name >>= fun contextId =>
      pure ⟨a.name, contextId⟩ := rfl
  rw [hprogram, getContextId, getExistingContext, LawfulMonad.bind_assoc,
    LawfulMonad.bind_assoc]
  obtain ⟨next, hrun, hnext⟩ := retrying_bind
    (callOr_run (.getItemsByType .context contextTypeName))
    (a.args.retries (.getItemsByType .context contextTypeName)) _
  refine ⟨next, hrun, ?_⟩
  intro contexts
  have hread := hnext (.ok contexts) contexts rfl
  apply And.intro
  · intro ctx hctx
    rw [hread, pure_bind, hctx]
    rfl
  · intro hnone
    rw [hread, pure_bind, hnone]

theorem createContext_run (a : Creation) :
    ∃ next, (createContext a.args a.name >>= fun id => pure (⟨a.name, id⟩ : Workspace)).run =
        .call (.putType .context workspaceType sameFields) next ∧
      ∀ typeId : Int, next (.ok typeId) =
        (addContext a.args a.name typeId >>= fun id => pure ⟨a.name, id⟩).run := by
  rw [createContext, LawfulMonad.bind_assoc]
  obtain ⟨next, hrun, hnext⟩ := retrying_bind
    (callOr_run (.putType .context workspaceType sameFields))
    (a.args.retries (.putType .context workspaceType sameFields))
    fun typeId => addContext a.args a.name typeId >>= fun id => pure (⟨a.name, id⟩ : Workspace)
  exact ⟨next, hrun, fun typeId => hnext (.ok typeId) typeId rfl⟩

theorem addContext_run (a : Creation) (typeId : Int) :
    ∃ next, (addContext a.args a.name typeId >>= fun id => pure (⟨a.name, id⟩ : Workspace)).run =
        .call (.putItems .context [a.args.context a.name typeId]) next ∧
      ∀ (id : Int) (rest : List Int), next (.ok (id :: rest)) = .done (.ok ⟨a.name, id⟩) := by
  obtain ⟨first, hput, hfirst⟩ : ∃ first, (putContext a.args a.name typeId).run =
      .call (.putItems .context [a.args.context a.name typeId]) first ∧
      ∀ (id : Int) (rest : List Int), first (.ok (id :: rest)) = .done (.ok id) :=
    ⟨_, rfl, fun _ _ => rfl⟩
  rw [addContext]
  obtain ⟨next, hrun, hnext⟩ := retrying_bind hput
    (a.args.retries (.putItems .context [a.args.context a.name typeId]))
    fun id => pure (⟨a.name, id⟩ : Workspace)
  exact ⟨next, hrun, fun id rest => hnext (.ok (id :: rest)) id (hfirst id rest)⟩

/-- Workspaces stay, and their type. -/
structure Grown (c d : Contents) : Prop where
  workspaces : ∀ x ∈ workspaces c, x ∈ workspaces d
  type : ∀ u, c.findType .context contextTypeName = some u →
    d.findType .context contextTypeName = some u

variable {c d : Contents} {rest : Program api Constructed}

/-- What a construction knows stays so, as long as nobody else puts a context of the name
that it is about to put. -/
theorem Point.grown (hpoint : Point a c rest) (hgrown : Grown c d)
    (hname : (∃ op next, rest = .call op next ∧ ¬ Call.IsRead op) → Named d a.name →
      Named c a.name) : Point a d rest := by
  cases hpoint with
  | lookup => exact .lookup
  | putType hnew =>
      obtain ⟨next, hrun, -⟩ := createContext_run a
      exact .putType fun hnamed => hnew (hname ⟨_, _, hrun, fun hread => hread⟩ hnamed)
  | putContext type htype hnew =>
      obtain ⟨next, hrun, -⟩ := addContext_run a type.id
      exact .putContext type (hgrown.type type htype)
        fun hnamed => hnew (hname ⟨_, _, hrun, fun hread => hread⟩ hnamed)
  | done ws hstands =>
      obtain ⟨x, hx, hnamed⟩ := hstands
      exact .done ws ⟨x, hgrown.workspaces x hx, hnamed⟩

/-- Only a construction that has found or made its workspace has its answer. -/
theorem Point.answer {answer : Constructed} (hpoint : Point a c (.done answer)) :
    ∃ ws, answer = .ok ws ∧ Stands c a.name ws := by
  generalize hrest : (.done answer : Program api Constructed) = rest at hpoint
  cases hpoint with
  | lookup =>
      obtain ⟨next, hrun, -⟩ := newWorkspace_run a
      cases hrest.trans hrun
  | putType hnew =>
      obtain ⟨next, hrun, -⟩ := createContext_run a
      cases hrest.trans hrun
  | putContext type htype hnew =>
      obtain ⟨next, hrun, -⟩ := addContext_run a type.id
      cases hrest.trans hrun
  | done ws hstands =>
      cases hrest
      exact ⟨ws, rfl, hstands⟩

/-- What a call of a construction does: the store stays orderly, workspaces stay, and the
only new name is its own, in a call that does not read. -/
structure Advances (a : Creation) (s t : Store) (op : Call) (rest : Program api Constructed) :
    Prop where
  orderly : Orderly t.contents
  grown : Grown s.contents t.contents
  point : Point a t.contents rest
  names : ∀ name, Named t.contents name →
    Named s.contents name ∨ (name = a.name ∧ ¬ op.IsRead)

section Calls

variable {s t : Store}

variable {op : Call} {next : api.Reply op → Program api Constructed} {reply : api.Reply op}

theorem advances_lookup (hs : Orderly s.contents)
    (hrun : .call op next = (newWorkspace a.args).run) (hcall : healthy op s reply t) :
    Advances a s t op (next reply) := by
  obtain ⟨next', hrun', hnext⟩ := newWorkspace_run a
  cases hrun.trans hrun'
  obtain ⟨contexts, rfl, rfl, hperm⟩ := healthy_read hcall
  obtain ⟨hfound, hnone⟩ := hnext contexts
  have hpoint : Point a t.contents (next' (.ok contexts)) := by
    cases hfind : contexts.find? fun ctx => contextName ctx = a.name with
    | some ctx =>
        rw [hfound ctx hfind]
        have hmem : ctx ∈ workspaces t.contents :=
          hperm.mem_iff.mp (List.mem_of_find?_eq_some hfind)
        obtain ⟨id, hid⟩ := hs.identified ctx hmem
        exact .done _ ⟨ctx, hmem, by simpa using List.find?_some hfind, by rw [hid]; rfl⟩
    | none =>
        rw [hnone hfind]
        apply Point.putType
        intro hnamed
        obtain ⟨x, hx, hname⟩ := hnamed
        have hnot := List.find?_eq_none.mp hfind x (hperm.mem_iff.mpr hx)
        exact hnot (decide_eq_true hname)
  exact ⟨hs, ⟨fun _ hx => hx, fun _ hu => hu⟩, hpoint, fun _ hnamed => Or.inl hnamed⟩

theorem advances_putType (hs : Orderly s.contents) (hnew : ¬ Named s.contents a.name)
    (hrun : .call op next = (createContext a.args a.name >>= fun id => pure ⟨a.name, id⟩).run)
    (hcall : healthy op s reply t) : Advances a s t op (next reply) := by
  obtain ⟨next', hrun', hnext⟩ := createContext_run a
  cases hrun.trans hrun'
  obtain ⟨id, rfl, ht, hworkspaces, htype, hkept⟩ := healthy_putType hs hcall
  have hnamed : ∀ name, Named t.contents name → Named s.contents name := by
    intro name hname
    rwa [Named, hworkspaces] at hname
  have hpoint : Point a t.contents (next' (.ok id)) := by
    rw [hnext id]
    exact .putContext _ htype fun hname => hnew (hnamed _ hname)
  exact ⟨ht, ⟨fun x hx => by rwa [hworkspaces], hkept⟩, hpoint,
    fun name hname => Or.inl (hnamed name hname)⟩

theorem advances_putContext (hs : Orderly s.contents) {type : StoredType}
    (htype : s.contents.findType .context contextTypeName = some type)
    (hnew : ¬ Named s.contents a.name)
    (hrun : .call op next = (addContext a.args a.name type.id >>= fun id => pure ⟨a.name, id⟩).run)
    (hcall : healthy op s reply t) : Advances a s t op (next reply) := by
  obtain ⟨next', hrun', hnext⟩ := addContext_run a type.id
  cases hrun.trans hrun'
  obtain ⟨id, rfl, ht, htypes, hworkspaces⟩ := healthy_putContext hs htype hnew hcall
  have hgrown : Grown s.contents t.contents := by
    apply Grown.mk
    · intro x hx
      rw [hworkspaces]
      exact List.mem_append_left _ hx
    · intro u hu
      rwa [Contents.findType, htypes]
  have hpoint : Point a t.contents (next' (.ok [id])) := by
    rw [hnext id []]
    refine .done _ ⟨{ a.args.context a.name type.id with id := some id }, ?_, rfl, rfl⟩
    rw [hworkspaces]
    exact List.mem_append_right _ (List.mem_singleton_self _)
  apply Advances.mk ht hgrown hpoint
  intro name hname
  obtain ⟨x, hx, rfl⟩ := hname
  rw [hworkspaces] at hx
  cases List.mem_append.mp hx with
  | inl hold => exact Or.inl ⟨x, hold, rfl⟩
  | inr hadded =>
      rw [List.mem_singleton.mp hadded]
      exact Or.inr ⟨rfl, fun hread => hread⟩

/-- **One call.** A construction gets from one point to another. -/
theorem Point.call (hs : Orderly s.contents) (hpoint : Point a s.contents (.call op next))
    (hcall : healthy op s reply t) : Advances a s t op (next reply) := by
  generalize hrest : (.call op next : Program api Constructed) = rest at hpoint
  cases hpoint with
  | lookup => exact advances_lookup hs hrest hcall
  | putType hnew => exact advances_putType hs hnew hrest hcall
  | putContext type htype hnew => exact advances_putContext hs htype hnew hrest hcall
  | done ws hstands => cases hrest

end Calls

/-! ## All constructions -/

/-- Where a client is. -/
def PhaseHolds (a : Creation) (c : Contents) :
    Phase api (Option Constructed) Unit Constructed → Prop
  | .idle none => True
  | .idle (some answer) => Point a c (.done answer)
  | .busy _ _ rest => Point a c rest

/-- Every client is at a point of its construction. -/
structure Underway (creation : ι → Creation)
    (c : Config api Store ι (Option Constructed) Unit Constructed) : Prop where
  orderly : Orderly c.state.contents
  phases : ∀ i, PhaseHolds (creation i) c.state.contents (c.phase i)

theorem PhaseHolds.grown {phase : Phase api (Option Constructed) Unit Constructed}
    (hphase : PhaseHolds a c phase) (hgrown : Grown c d)
    (hname : Creating phase → Named d a.name → Named c a.name) : PhaseHolds a d phase := by
  cases phase with
  | idle memory =>
      cases memory with
      | none => trivial
      | some answer =>
          refine Point.grown hphase hgrown fun hput => ?_
          obtain ⟨op, next, hcall, -⟩ := hput
          cases hcall
  | busy memory job rest =>
      refine Point.grown hphase hgrown fun hput => hname ?_
      obtain ⟨op, next, rfl, hnot⟩ := hput
      exact ⟨memory, job, op, next, rfl, hnot⟩

variable [DecidableEq ι] {creation : ι → Creation}
  {b e : Config api Store ι (Option Constructed) Unit Constructed}

/-- Changing the phase of one client. -/
theorem Underway.update {i : ι} {t : Store}
    {phase : Phase api (Option Constructed) Unit Constructed} (horderly : Orderly t.contents)
    (hphase : PhaseHolds (creation i) t.contents phase)
    (hothers : ∀ j, j ≠ i → PhaseHolds (creation j) t.contents (b.phase j)) :
    Underway creation ⟨t, Function.update b.phase i phase⟩ := by
  refine ⟨horderly, fun j => ?_⟩
  by_cases hj : j = i
  · subst hj
    simpa using hphase
  · simpa [Function.update_of_ne hj] using hothers j hj

/-- **One step.** While no two clients create a workspace of one name, every step takes
the constructions on. -/
theorem Underway.step (hunderway : Underway creation b)
    (hstep : (constructions creation).Step healthy nothingElse b e)
    (hexclusive : Exclusive creation b) : Underway creation e := by
  cases hstep with
  | start i memory job hphase hready =>
      exact Underway.update hunderway.orderly .lookup fun j _ => hunderway.phases j
  | call i memory job op next reply t hphase hcall =>
      have hpoint := hunderway.phases i
      rw [hphase] at hpoint
      have hadvances := Point.call hunderway.orderly hpoint hcall
      have hbusy : PhaseHolds (creation i) t.contents (.busy memory job (next reply)) :=
        hadvances.point
      apply Underway.update hadvances.orderly hbusy
      intro j hj
      apply (hunderway.phases j).grown hadvances.grown
      intro hcreating hnamed
      cases hadvances.names _ hnamed with
      | inl hold => exact hold
      | inr hput =>
          -- The client puts a context of the name that the other is creating.
          exact absurd ⟨hcreating, memory, job, op, next, hphase, hput.2⟩
            (hexclusive j i hj hput.1)
  | finish i memory job answer hphase =>
      have hpoint := hunderway.phases i
      rw [hphase] at hpoint
      exact Underway.update hunderway.orderly hpoint fun j _ => hunderway.phases j
  | outside t henv => exact henv.elim

omit [DecidableEq ι] in
/-- What a client has got stands in the store. -/
theorem Underway.stands (hunderway : Underway creation b) {i : ι} {answer : Constructed}
    (hanswer : gotten (b.phase i) = some answer) :
    ∃ ws, answer = .ok ws ∧ Stands b.state.contents (creation i).name ws := by
  have hphase := hunderway.phases i
  cases hp : b.phase i with
  | idle memory =>
      rw [hp] at hanswer hphase
      obtain rfl : memory = some answer := hanswer
      exact Point.answer hphase
  | busy memory job rest =>
      rw [hp] at hanswer hphase
      cases rest with
      | done answer' =>
          obtain rfl := Option.some.inj hanswer
          exact Point.answer hphase
      | call op next => cases hanswer

/-- In an orderly store the ids of workspaces are as different as their names. -/
theorem contextId_eq_iff {s : Store} (hs : Orderly s.contents) {name name' : String}
    {ws ws' : Workspace} (hstands : Stands s.contents name ws)
    (hstands' : Stands s.contents name' ws') : ws.contextId = ws'.contextId ↔ name = name' := by
  obtain ⟨x, hx, hname, hid⟩ := hstands
  obtain ⟨y, hy, hname', hid'⟩ := hstands'
  apply Iff.intro
  · intro hsame
    have hxy : x = y := by
      apply List.inj_on_of_nodup_map (s.wellFormed.itemIds .context)
        (mem_items_of_mem_workspaces hx) (mem_items_of_mem_workspaces hy)
      rw [hid, hid', hsame]
    rw [← hname, ← hname', hxy]
  · intro hsame
    have hxy : x = y := List.inj_on_of_nodup_map hs.names hx hy (by rw [hname, hname', hsame])
    rw [hxy, hid'] at hid
    exact (Option.some.inj hid).symm

omit [DecidableEq ι] in
/-- Clients that are at points of their constructions agree. -/
theorem Underway.agree (hunderway : Underway creation b) : Agree creation b where
  returned i answer hanswer := by
    obtain ⟨ws, hws, -⟩ := hunderway.stands hanswer
    exact ⟨ws, hws⟩
  ids i j ws ws' hi hj := by
    obtain ⟨_, hws, hstands⟩ := hunderway.stands hi
    obtain ⟨_, hws', hstands'⟩ := hunderway.stands hj
    obtain rfl := Except.ok.inj hws
    obtain rfl := Except.ok.inj hws'
    exact contextId_eq_iff hunderway.orderly hstands hstands'
  names := hunderway.orderly.names

/-- Steps that are made while no two clients create a workspace of one name. -/
abbrev ExclusiveSteps (creation : ι → Creation) :
    Config api Store ι (Option Constructed) Unit Constructed →
      Config api Store ι (Option Constructed) Unit Constructed → Prop :=
  Relation.ReflTransGen fun b e =>
    (constructions creation).Step healthy nothingElse b e ∧ Exclusive creation b

/-- **Constructing workspaces.** Whatever the calls of any number of constructions do to
an orderly store, in any order: as long as no two constructions of one name are between
their lookup and the end of their put, they all return, and agree. -/
theorem constructions_agree {s : Store} (hs : Orderly s.contents)
    (hsteps : ExclusiveSteps creation (beginning s) e) : Agree creation e := by
  have hunderway : Underway creation e := by
    induction hsteps with
    | refl => exact ⟨hs, fun _ => trivial⟩
    | tail _ hstep ih => exact ih.step hstep.1 hstep.2
  exact hunderway.agree

/-! ## Two constructions of one workspace -/

/-- A healthy store may do what the store in memory does when it accepts a call. -/
theorem healthy_of_inMemory {op : Call} {s : Store}
    (haccepted : (InMemory.step op s.contents).isSome) :
    healthy op s (inMemory op s).1 (inMemory op s).2 := by
  cases hreply : (inMemory op s).1 with
  | ok result =>
      have heffect : inMemory.effect op s (.ok result) _ := Prod.ext hreply rfl
      exact Or.inl ⟨result, rfl, InMemory.step_documented (inMemory_ok heffect)⟩
  | error message =>
      have heffect : inMemory.effect op s (.error message) _ := Prod.ext hreply rfl
      rw [(inMemory_error heffect).1] at haccepted
      cases haccepted

/-- A healthy store may refuse an item that clashes with one that is stored. -/
theorem healthy_of_clash {k : Kind} {x y : Item k} {s : Store} (hy : y ∈ s.contents.items k)
    (hclash : Clash k x y) : healthy (.putItems k [x]) s (.error "refused") s :=
  Or.inr ⟨⟨_, rfl⟩, rfl, x, List.mem_singleton_self x, Or.inr ⟨y, hy, hclash⟩⟩

theorem orderly_empty : Orderly Store.empty.contents where
  consistent := consistent_empty
  names := List.nodup_nil
  identified := nofun
  fields := nofun

/-- Two constructions of the workspace ws, with two attempts at each call. -/
def rivals (_ : Bool) : Creation := ⟨"ws", none, none, fun _ => 1⟩

/-- Two clients construct a workspace on an empty store. Both find none of its name, the
first puts one, and the second raises after its second attempt at this. -/
theorem overlapping_construction_raises :
    ¬ ∀ (ι : Type) (_ : DecidableEq ι) (creation : ι → Creation) (s : Store)
      (c : Config api Store ι (Option Constructed) Unit Constructed), Orderly s.contents →
        (constructions creation).Steps healthy nothingElse (beginning s) c →
          Agree creation c := by
  intro hclaim
  have hlooked : (constructions rivals).Steps healthy nothingElse (beginning Store.empty) _ :=
    (((Relation.ReflTransGen.single (Clients.Step.start true none () rfl rfl)).tail
      (Clients.Step.call true none () _ _ _ _ rfl (healthy_of_inMemory rfl))).tail
      (Clients.Step.start false none () rfl rfl)).tail
      (Clients.Step.call false none () _ _ _ _ rfl (healthy_of_inMemory rfl))
  have hput := (hlooked.tail
    (Clients.Step.call true none () _ _ _ _ rfl (healthy_of_inMemory rfl))).tail
    (Clients.Step.call true none () _ _ _ _ rfl (healthy_of_inMemory rfl))
  have hrefused := ((hput.tail
    (Clients.Step.call false none () _ _ _ _ rfl (healthy_of_inMemory rfl))).tail
    (Clients.Step.call false none () _ _ _ _ rfl
      (healthy_of_clash (List.mem_singleton_self _) ⟨rfl, rfl⟩))).tail
    (Clients.Step.call false none () _ _ _ _ rfl
      (healthy_of_clash (List.mem_singleton_self _) ⟨rfl, rfl⟩))
  have hagree := hclaim Bool inferInstance rivals Store.empty _ orderly_empty hrefused
  obtain ⟨ws, hws⟩ := hagree.returned false (.error (.rpc "refused")) rfl
  cases hws

theorem not_creating_idle (memory : Option Constructed) : ¬ Creating (.idle memory) := by
  intro hcreating
  obtain ⟨_, _, _, _, hphase, -⟩ := hcreating
  cases hphase

theorem not_creating_done (memory : Option Constructed) (answer : Constructed) :
    ¬ Creating (.busy memory () (.done answer)) := by
  intro hcreating
  obtain ⟨_, _, _, _, hphase, -⟩ := hcreating
  cases hphase

theorem exclusive_rivals {c : Config api Store Bool (Option Constructed) Unit Constructed}
    {b : Bool} (hnot : ¬ Creating (c.phase b)) : Exclusive rivals c := by
  intro i j hij _ hboth
  by_cases hi : i = b
  · exact hnot (hi ▸ hboth.1)
  · have hj : j = b := by
      rw [Bool.eq_not_of_ne hi] at hij
      exact (Bool.eq_not_of_ne hij.symm).trans (Bool.not_not b)
    exact hnot (hj ▸ hboth.2)

/-- The first construction is at its end when the second starts, which finds the workspace. -/
theorem constructions_agree_oneAfterTheOther :
    ∃ c : Config api Store Bool (Option Constructed) Unit Constructed,
      gotten (c.phase true) = some (.ok ⟨"ws", 1⟩) ∧
      gotten (c.phase false) = some (.ok ⟨"ws", 1⟩) ∧ Agree rivals c := by
  have hfirst : ExclusiveSteps rivals (beginning Store.empty) _ :=
    (((Relation.ReflTransGen.single
      ⟨Clients.Step.start true none () rfl rfl,
        exclusive_rivals (b := false) (not_creating_idle none)⟩).tail
      ⟨Clients.Step.call true none () _ _ _ _ rfl (healthy_of_inMemory rfl),
        exclusive_rivals (b := false) (not_creating_idle none)⟩).tail
      ⟨Clients.Step.call true none () _ _ _ _ rfl (healthy_of_inMemory rfl),
        exclusive_rivals (b := false) (not_creating_idle none)⟩).tail
      ⟨Clients.Step.call true none () _ _ _ _ rfl (healthy_of_inMemory rfl),
        exclusive_rivals (b := false) (not_creating_idle none)⟩
  have hsecond := (hfirst.tail
    ⟨Clients.Step.start false none () rfl rfl,
      exclusive_rivals (b := false) (not_creating_idle none)⟩).tail
    ⟨Clients.Step.call false none () _ _ _ _ rfl (healthy_of_inMemory rfl),
      exclusive_rivals (b := true) (not_creating_done none _)⟩
  exact ⟨_, rfl, rfl, constructions_agree orderly_empty hsecond⟩

end KfMetadata.Sdk
