/-
# Workspaces

A workspace is a context. Constructing a workspace looks for a context of its name, and
if there is none puts the type of workspaces, which may be there already, and then a
context of this type. Each of these calls is tried again when it fails, as often as
fits into a delay. Nothing is looked up again once the put of a context has failed.

A healthy store refuses a type only if it is there with other fields, and a context only
if its type is not there or another context has its type and name.
-/

import KfMetadata.Mlmd.Consistent
import KfMetadata.Sdk.Metadata

namespace KfMetadata.Sdk

open Mlmd Remote Remote.Program

def contextTypeName : String := "kubeflow.org/alpha/workspace"

/-- Retry with exponential backoff: so many further attempts fit into the delay. -/
def retrying {α : Type} (f : Py α) : Nat → Py α
  | 0 => f
  | retries + 1 => ExceptT.mk (f.run >>= fun
      | .ok value => pure (.ok value)
      | .error _ => (retrying f retries).run)

/-- The arguments of a construction. A name that is missing is none, or not a string; the
labels are given as JSON. -/
structure WorkspaceArgs where
  /-- Whether the store is a store. -/
  hasStore : Bool
  name : Option String
  description : Option String
  labels : Option String
  reuseWorkspaceIfExists : Bool
  backendUrlPrefix : String
  /-- How often each call may be tried again before its delay is over. -/
  retries : Call → Nat

/-- The name of a context, empty when it is not set. -/
def contextName (ctx : Context) : String := (ctx.detail : Option String).getD ""

/-- The fields of the type of workspaces. -/
def workspaceFields : StringMap PropertyType :=
  (Finmap.singleton "description" .string).insert "labels" .string

def workspaceType : TypeRecord := ⟨none, some contextTypeName, workspaceFields⟩

/-- By default the fields of a type that is there already must be the same. -/
def sameFields : PutTypeOptions := ⟨false, false, true⟩

/-- A property that is there if its text is given. -/
def givenProperty (name : String) (text : Option String) (properties : StringMap Value) :
    StringMap Value :=
  match text with
  | none => properties
  | some text => properties.insert name (.string text)

/-- The properties of the context: what is given of the description and the labels. -/
def contextProperties (description labels : Option String) : StringMap Value :=
  givenProperty "labels" labels (givenProperty "description" description ∅)

/-- The context that is put for a workspace. -/
def WorkspaceArgs.context (args : WorkspaceArgs) (name : String) (typeId : Int) : Context where
  id := none
  typeId := some typeId
  properties := contextProperties args.description args.labels
  customProperties := ∅
  detail := some name

/-- The context of the name, if there is one. -/
def getExistingContext (args : WorkspaceArgs) (name : String) : Py (Option Context) := do
  let contexts ← retrying (callOr .rpc (.getItemsByType .context contextTypeName))
    (args.retries (.getItemsByType .context contextTypeName))
  return contexts.find? fun ctx => contextName ctx = name

/-- Put a context of the type, and take the id that it gets. -/
def putContext (args : WorkspaceArgs) (name : String) (typeId : Int) : Py Int := do
  let ids ← callOr .rpc (.putItems .context [args.context name typeId])
  ofResult (firstOf ids)

/-- Add a new context for a workspace. -/
def addContext (args : WorkspaceArgs) (name : String) (typeId : Int) : Py Int :=
  retrying (putContext args name typeId)
    (args.retries (.putItems .context [args.context name typeId]))

/-- Create the context type, or get the id of the existing one, and add a new context. -/
def createContext (args : WorkspaceArgs) (name : String) : Py Int := do
  let typeId ← retrying (callOr .rpc (.putType .context workspaceType sameFields))
    (args.retries (.putType .context workspaceType sameFields))
  addContext args name typeId

def getContextId (args : WorkspaceArgs) (name : String) : Py Int := do
  match ← getExistingContext args name with
  | some ctx =>
      if args.reuseWorkspaceIfExists then return ctx.id.getD 0
      else throw (.valueError ("Workspace name {} already exists with id {}. You can initialize " ++
        "workspace with reuse_workspace_if_exists=True if want to reuse it")
        [.text name, .ids [ctx.id.getD 0]])
  | none => createContext args name

/-- Construct a workspace. -/
def newWorkspace (args : WorkspaceArgs) : Py Workspace :=
  if args.backendUrlPrefix ≠ "" then
    throw (.valueError ("'backend_url_prefix' is deprecated. Please set Metadata.Store " ++
      "parameter to connect to the metadata gRPC service.") [])
  else
    match args.name with
    | none => throw (.valueError "'name' must be set and in string type." [])
    | some name =>
        if args.hasStore then do
          let contextId ← getContextId args name
          return ⟨name, contextId⟩
        else throw (.valueError "'store' must be set as metadata.Store" [])

/-! ## First attempts -/

/-- The first call of a program that retries decides if it succeeds. -/
theorem retrying_bind {α β : Type} {f : Py α} {op : Call}
    {first : api.Reply op → Program api (Except PyError α)} (hf : f.run = .call op first)
    (retries : Nat) (g : α → Py β) :
    ∃ next, (retrying f retries >>= g).run = .call op next ∧
      ∀ reply value, first reply = .done (.ok value) → next reply = (g value).run := by
  have hretrying : ∃ next', (retrying f retries).run = .call op next' ∧
      ∀ reply value, first reply = .done (.ok value) → next' reply = .done (.ok value) := by
    cases retries with
    | zero => exact ⟨first, hf, fun _ _ hvalue => hvalue⟩
    | succ retries =>
        rw [retrying, ExceptT.run_mk, hf]
        refine ⟨_, rfl, ?_⟩
        intro reply value hvalue
        rw [hvalue]
        rfl
  obtain ⟨next', hcall, hnext'⟩ := hretrying
  rw [ExceptT.run_bind, hcall]
  refine ⟨_, rfl, ?_⟩
  intro reply value hvalue
  rw [hnext' reply value hvalue]
  rfl

/-! ## A healthy store -/

/-- The contexts of workspaces. -/
def workspaces (c : Contents) : List Context := c.itemsOfType .context contextTypeName

/-- Why a healthy store refuses a call; those that constructions do not make are left open. -/
def Refuses : Call → Contents → Prop
  | .getItemsByType _ _, _ => False
  | .putType k type opts, c =>
      ∃ old, c.findType k type.getName = some old ∧ ¬ opts.Admits old.properties type.properties
  | .putItems k items, c => ∃ x ∈ items, ¬ Typed c x ∨ ∃ y ∈ c.items k, Clash k x y
  | _, _ => True

/-- What a healthy store may do. -/
def healthy : Effect api Store := fun op s reply t =>
  (∃ result, reply = .ok result ∧ Documented op s.contents result t.contents) ∨
    (∃ message, reply = .error message) ∧ t = s ∧ Refuses op s.contents

theorem mem_items_of_mem_workspaces {c : Contents} {x : Context} (hx : x ∈ workspaces c) :
    x ∈ c.items .context := by
  unfold workspaces Contents.itemsOfType at hx
  split at hx
  · exact absurd hx List.not_mem_nil
  · exact (List.mem_filter.mp hx).1

/-- A context of this name is stored. -/
def Named (c : Contents) (name : String) : Prop := ∃ x ∈ workspaces c, contextName x = name

/-- What holds of the store: no two workspaces have one name, each has an id, and the type
of workspaces has its fields if it is there. -/
structure Orderly (c : Contents) : Prop where
  consistent : c.Consistent
  names : ((workspaces c).map contextName).Nodup
  identified : ∀ x ∈ workspaces c, ∃ id, x.id = some id
  fields : ∀ t, c.findType .context contextTypeName = some t → t.properties = workspaceFields

variable {s t : Store}

theorem healthy_read {reply : api.Reply (.getItemsByType .context contextTypeName)}
    (hcall : healthy (.getItemsByType .context contextTypeName) s reply t) :
    ∃ contexts, reply = .ok contexts ∧ t = s ∧ contexts.Perm (workspaces s.contents) := by
  cases hcall with
  | inl hok =>
      obtain ⟨contexts, rfl, hsame, hperm⟩ := hok
      exact ⟨contexts, rfl, Store.ext hsame, hperm⟩
  | inr hrefused => exact hrefused.2.2.elim

/-- The type of workspaces is put, or is there already. -/
theorem healthy_putType (hs : Orderly s.contents)
    {reply : api.Reply (.putType .context workspaceType sameFields)}
    (hcall : healthy (.putType .context workspaceType sameFields) s reply t) :
    ∃ id, reply = .ok id ∧ Orderly t.contents ∧ workspaces t.contents = workspaces s.contents ∧
      t.contents.findType .context contextTypeName = some ⟨id, contextTypeName, workspaceFields⟩ ∧
      ∀ u, s.contents.findType .context contextTypeName = some u →
        t.contents.findType .context contextTypeName = some u := by
  cases hcall with
  | inl hok =>
      obtain ⟨id, rfl, hdoc⟩ := hok
      have hput : PutType .context workspaceType sameFields s.contents id t.contents := hdoc
      have hworkspaces : workspaces t.contents = workspaces s.contents :=
        PutType.itemsOfType hs.consistent hput contextTypeName
      have hfound : t.contents.findType .context contextTypeName =
          some ⟨id, contextTypeName, workspaceFields⟩ := hput.findType
      refine ⟨id, rfl, ⟨hs.consistent.documented s.wellFormed hdoc, ?_, ?_, ?_⟩, hworkspaces,
        hfound, ?_⟩
      · rw [hworkspaces]
        exact hs.names
      · rw [hworkspaces]
        exact hs.identified
      · intro u hu
        obtain rfl := Option.some.inj (hfound.symm.trans hu)
        rfl
      · intro u hu
        have hname : u.name = contextTypeName := Keyed.key_of_find hu
        have hid : id = u.id := by
          unfold PutType at hput
          rw [show s.contents.findType .context workspaceType.getName = some u from hu] at hput
          exact hput.1
        rw [hfound, hid, ← hname, ← hs.fields u hu]
  | inr hrefused =>
      obtain ⟨old, hold, hnot⟩ := hrefused.2.2
      have hsame := hs.fields old hold
      exact absurd ⟨rfl, rfl, hsame.symm⟩ hnot

theorem lookup_givenProperty {name given : String} {text : Option String}
    {properties : StringMap Value} {value : Value}
    (hvalue : (givenProperty given text properties).lookup name = some value) :
    (name = given ∧ value.type = some .string) ∨ properties.lookup name = some value := by
  cases text with
  | none => exact Or.inr hvalue
  | some text =>
      change (properties.insert given (.string text)).lookup name = some value at hvalue
      by_cases hname : name = given
      · subst hname
        rw [Finmap.lookup_insert] at hvalue
        obtain rfl := Option.some.inj hvalue
        exact Or.inl ⟨rfl, rfl⟩
      · rw [Finmap.lookup_insert_of_ne _ hname] at hvalue
        exact Or.inr hvalue

/-- What a context is put with is declared by the type of workspaces. -/
theorem lookup_contextProperties {description labels : Option String} {name : String}
    {value : Value} (hvalue : (contextProperties description labels).lookup name = some value) :
    value.type = some .string ∧ workspaceFields.lookup name = some .string := by
  cases lookup_givenProperty hvalue with
  | inl hlabels =>
      obtain ⟨rfl, htype⟩ := hlabels
      exact ⟨htype, rfl⟩
  | inr hothers =>
      cases lookup_givenProperty hothers with
      | inl hdescription =>
          obtain ⟨rfl, htype⟩ := hdescription
          exact ⟨htype, rfl⟩
      | inr hempty =>
          rw [Finmap.lookup_empty] at hempty
          cases hempty

section PutContext

variable {type : StoredType} {args : WorkspaceArgs} {name : String}

/-- The context that is put for a workspace has the properties of its type. -/
theorem typed_context (hs : Orderly s.contents)
    (htype : s.contents.findType .context contextTypeName = some type) :
    Typed s.contents (k := .context) (args.context name type.id) := by
  refine ⟨type, Keyed.mem_of_find htype, rfl, ?_⟩
  intro field value hvalue
  rw [hs.fields type htype]
  exact ⟨.string, lookup_contextProperties hvalue⟩

/-- It clashes with a workspace of its name only. -/
theorem named_of_clash (htype : s.contents.findType .context contextTypeName = some type)
    {y : Context} (hy : y ∈ s.contents.items .context)
    (hclash : Clash .context (args.context name type.id) y) : Named s.contents name := by
  obtain ⟨htypeId, hdetail⟩ := hclash
  refine ⟨y, ?_, congrArg (fun detail => Option.getD detail "") hdetail.symm⟩
  rw [workspaces, Contents.itemsOfType, htype]
  exact List.mem_filter.mpr ⟨hy, decide_eq_true htypeId.symm⟩

/-- A context of a new name is put. -/
theorem healthy_putContext (hs : Orderly s.contents)
    (htype : s.contents.findType .context contextTypeName = some type)
    (hnew : ¬ Named s.contents name)
    {reply : api.Reply (.putItems .context [args.context name type.id])}
    (hcall : healthy (.putItems .context [args.context name type.id]) s reply t) :
    ∃ id, reply = .ok [id] ∧ Orderly t.contents ∧ t.contents.types = s.contents.types ∧
      workspaces t.contents =
        workspaces s.contents ++ [{ args.context name type.id with id := some id }] := by
  cases hcall with
  | inl hok =>
      obtain ⟨ids, rfl, hdoc⟩ := hok
      obtain ⟨id, rfl, -, hfresh, -, -, hcontents⟩ := (putItems_singleton rfl).mp hdoc
      have hworkspaces : workspaces t.contents =
          workspaces s.contents ++ [{ args.context name type.id with id := some id }] := by
        rw [hcontents]
        exact Contents.itemsOfType_addItem_of_type htype rfl
      refine ⟨id, rfl, ⟨hs.consistent.documented s.wellFormed hdoc, ?_, ?_, ?_⟩, ?_, hworkspaces⟩
      · rw [hworkspaces]
        apply Keyed.nodup_append_singleton hs.names
        exact fun x hx hname => hnew ⟨x, hx, hname⟩
      · intro x hx
        rw [hworkspaces] at hx
        cases List.mem_append.mp hx with
        | inl hold => exact hs.identified x hold
        | inr hadded =>
            rw [List.mem_singleton.mp hadded]
            exact ⟨id, rfl⟩
      · rw [hcontents]
        exact hs.fields
      · rw [hcontents]
        rfl
  | inr hrefused =>
      obtain ⟨x, hx, hreason⟩ := hrefused.2.2
      obtain rfl := List.mem_singleton.mp hx
      cases hreason with
      | inl huntyped => exact absurd (typed_context hs htype) huntyped
      | inr hclash =>
          obtain ⟨y, hy, hclash⟩ := hclash
          exact absurd (named_of_clash htype hy hclash) hnew

end PutContext

end KfMetadata.Sdk
