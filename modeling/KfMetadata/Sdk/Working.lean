/-
# Clients at a server with the shipped types

While a client logs something, other clients add to the same store, directly or through
the service. If the server has registered the shipped types and the store refuses only
what it must, none of this can make a call of the client fail: its types are there, its
messages fit them, and whatever it has stored stays. The one exception is a store that
has run out of ids.

Each part of the client is shown safe from any state that the others may have led to; what
it says of its result, also when it raises, stays true as the store grows.
-/

import KfMetadata.Sdk.Predefined
import KfMetadata.Service.Answers

namespace KfMetadata.Sdk

open Mlmd Remote Schema Service Remote.Program

/-! ## The store at work -/

/-- The store is consistent, its records have ids, and it offers the shipped types. -/
structure Serving (s : Store) : Prop where
  consistent : s.contents.Consistent
  numbered : s.contents.Numbered
  offers : Offers s

/-- What calls do to the store, whoever makes them. -/
def AddsOnly (s t : Store) : Prop := Adds s t ∧ (s.contents.Numbered → t.contents.Numbered)

variable {E : Effect api Store} {P : Store → Prop} {s t : Store} {α : Type} {dumps : Dumps}

theorem AddsOnly.serving (hadds : AddsOnly s t) (hs : Serving s) : Serving t where
  consistent := hadds.1.2 hs.consistent
  numbered := hadds.2 hs.numbered
  offers := hs.offers.grows hadds.1.1

theorem numbered_call (hE : Sound E) (op : Call) {reply : api.Reply op}
    (heffect : E op s reply t) (hs : s.contents.Numbered) : t.contents.Numbered := by
  cases hE.outcome heffect with
  | inl hsame => exact hsame ▸ hs
  | inr hdone =>
      obtain ⟨result, hdoc⟩ := hdone
      exact hs.documented hdoc

theorem addsOnly_call (hE : Sound E) (op : Call) (hinserts : op.Inserts) {reply : api.Reply op}
    (heffect : E op s reply t) : AddsOnly s t :=
  ⟨⟨hE.grows hinserts heffect, hE.consistent heffect⟩, numbered_call hE op heffect⟩

/-- Between the calls of the program others add to the store, of which `P` holds as well. -/
abbrev Working (E : Effect api Store) (P : Store → Prop) (post : α → Store → Prop)
    (p : Program api α) (s : Store) : Prop :=
  p.Safe E (fun t => Serving t ∧ P t) Store.Grows AddsOnly post s

/-- The store of a result has grown from the one at the start. -/
theorem Working.grown {post : α → Store → Prop} {p : Program api α}
    (hp : Working E P post p s) : Working E P (fun a t => post a t ∧ s.Grows t) p s :=
  Safe.frame (P := fun t => s.Grows t) (fun _ _ hst htu => grows_trans _ _ _ hst htu)
    (fun _ _ hst hadds => grows_trans _ _ _ hst hadds.1.1) (grows_refl s) hp

/-- A call with all its retries, from any state that the others may have led to. -/
theorem working_retry (hE : Sound E) (op : Call) (hinserts : op.Inserts)
    {post : Except PyError op.Result → Store → Prop}
    (hcall : ∀ t reply u, s.Grows t → Serving t → E op t reply u → ∀ v, u.Grows v →
      post (reply.mapError .rpc) v) : Working E P post (retry op).run s := by
  intro t hst hinv reply u heffect
  exact ⟨addsOnly_call hE op hinserts heffect, fun v huv _ =>
    hcall t reply u hst hinv.1 heffect v huv⟩

/-! ## The calls of a client -/

section Calls

variable (hE : Obliging E)
include hE

/-- A shipped type is found, under an id that stays its own. -/
theorem working_getType {r : Resource} {type : TypeRecord} (htype : (r, type) ∈ shippedTypes) :
    Working E P (fun result t => ∃ record, result = .ok record ∧
      TypeNamed t r.kind type.getName type.properties record.getId)
      (retry (.getType r.kind type.getName)).run s := by
  apply working_retry hE.toLawful.sound (.getType r.kind type.getName) trivial
  intro t reply u _ hserving heffect v huv
  obtain ⟨stored, hstored, hextends⟩ := hserving.offers r type htype
  obtain ⟨rfl, rfl⟩ := hE.getType hstored heffect
  exact ⟨_, rfl, TypeNamed.grows ⟨stored, hstored, rfl, hextends⟩ huv⟩

/-- A new record that fits a shipped type is stored, unless every id is taken. -/
theorem working_putItem {r : Resource} {type : TypeRecord} {id : Int} {x : Item r.kind}
    (hnamed : TypeNamed s r.kind type.getName type.properties id) (hnew : x.id = none)
    (hx : x.typeId = some id) (hdeclared : ∀ name value, x.properties.lookup name = some value →
      value.type = some .string ∧ type.properties.lookup name = some .string) :
    Working E P (fun result t =>
      (∃ id, result = .ok [id] ∧ t.findItem r.kind id = some { x with id := some id }) ∨
        (∃ e, result = .error e) ∧ Full r.kind t)
      (retry (.putItems r.kind [x])).run s := by
  have hkind : r.kind ≠ .context := by cases r <;> decide
  apply working_retry hE.toLawful.sound _ (by simpa [Call.Inserts] using hnew)
  intro t reply u hst _ heffect v huv
  have htyped : Typed t.contents x := typed_of_declared (hnamed.grows hst) hx hdeclared
  rcases hE.putItem hkind hnew htyped heffect with ⟨id, rfl, hstored⟩ | ⟨⟨error, rfl⟩, rfl, hfull⟩
  · exact Or.inl ⟨id, rfl, huv.findItem hstored⟩
  · exact Or.inr ⟨⟨.rpc error, rfl⟩, hfull.grows huv⟩

/-- Memberships of what is stored are put. -/
theorem working_putMembers {attributions : List Attribution} {associations : List Association}
    (hattributions : ∀ a ∈ attributions, (s.findItem .artifact a.artifactId).isSome ∧
      (s.findItem .context a.contextId).isSome)
    (hassociations : ∀ a ∈ associations, (s.findItem .execution a.executionId).isSome ∧
      (s.findItem .context a.contextId).isSome) :
    Working E P (fun result _ => result = .ok ())
      (retry (.putAttributionsAndAssociations attributions associations)).run s := by
  have hkept : ∀ {t : Store} {k : Kind} {id : Int}, s.Grows t → (s.findItem k id).isSome →
      (t.findItem k id).isSome := by
    intro t k id hst hsome
    obtain ⟨x, hx⟩ := Option.isSome_iff_exists.mp hsome
    exact Option.isSome_iff_exists.mpr ⟨x, hst.findItem hx⟩
  apply working_retry hE.toLawful.sound
    (.putAttributionsAndAssociations attributions associations) trivial
  intro t reply u hst _ heffect v _
  obtain rfl := hE.putMembers
    (fun a ha => ⟨hkept hst (hattributions a ha).1, hkept hst (hattributions a ha).2⟩)
    (fun a ha => ⟨hkept hst (hassociations a ha).1, hkept hst (hassociations a ha).2⟩) heffect
  rfl

theorem working_putAttribution {id contextId : Int} {a : Artifact} {w : Context}
    (hartifact : s.findItem .artifact id = some a)
    (hcontext : s.findItem .context contextId = some w) :
    Working E P (fun result _ => result = .ok ())
      (retry (.putAttributionsAndAssociations [⟨contextId, id⟩] [])).run s := by
  apply working_putMembers hE
  · intro b hb
    rw [List.mem_singleton.mp hb, hartifact, hcontext]
    exact ⟨rfl, rfl⟩
  · intro b hb
    exact absurd hb List.not_mem_nil

theorem working_putAssociation {id contextId : Int} {y : Mlmd.Execution} {w : Context}
    (hexecution : s.findItem .execution id = some y)
    (hcontext : s.findItem .context contextId = some w) :
    Working E P (fun result _ => result = .ok ())
      (retry (.putAttributionsAndAssociations [] [⟨contextId, id⟩])).run s := by
  apply working_putMembers hE
  · intro b hb
    exact absurd hb List.not_mem_nil
  · intro b hb
    rw [List.mem_singleton.mp hb, hexecution, hcontext]
    exact ⟨rfl, rfl⟩

/-- The id of a stored artifact passes its check. -/
theorem working_checkArtifactId {id : Int} {a : Artifact}
    (hstored : s.findItem .artifact id = some a) :
    Working E P (fun result _ => result = .ok ()) (checkArtifactId id).run s := by
  have hcall : Working E P (fun result _ => result = .ok [a])
      (retry (.getItemsByID .artifact [id])).run s := by
    apply working_retry hE.toLawful.sound (.getItemsByID .artifact [id]) trivial
    intro t reply u hst _ heffect v _
    obtain ⟨-, rfl⟩ := hE.getItemsByID (hst.findItem hstored) heffect
    rfl
  have hadapted : Working E P (fun result _ => result = .ok [a])
      (ExceptT.adapt (PyError.valueErrorFrom "invalid artifact id {}: {}" [.ids [id]])
        (retry (.getItemsByID .artifact [id]))).run s :=
    Safe.map grows_refl grows_trans (hcall.mono fun result _ _ hresult => by rw [hresult]; rfl)
  rw [checkArtifactId, ExceptT.run_bind]
  refine Safe.bind _ grows_refl grows_trans hadapted fun result t hinv hresult => ?_
  obtain rfl := hresult t (grows_refl t) hinv
  exact Safe.pure fun _ _ _ => rfl

end Calls

/-! ## Logging -/

/-- The stored artifact is what the object is stored as, or a duplicate of that. -/
def StandsFor (dumps : Dumps) (self : Execution) (x : LoggedObject) (a : Artifact) (s : Store) :
    Prop :=
  ∃ typeId, TypeNamed s .artifact x.type.getName x.type.properties typeId ∧
    (a = { x.message dumps typeId self with id := a.id } ∨
      (x.object dumps).isDuplicated (x.message dumps typeId self) a = true)

theorem StandsFor.grows {self : Execution} {x : LoggedObject} {a : Artifact}
    (hstands : StandsFor dumps self x a s) (hgrows : s.Grows t) : StandsFor dumps self x a t := by
  obtain ⟨typeId, hnamed, hsame⟩ := hstands
  exact ⟨typeId, hnamed.grows hgrows, hsame⟩

/-- How logging an object ends: its id is that of a stored artifact, which stands for the
object if it had no id before, or the store is full. -/
def LogEnds (dumps : Dumps) (self : Execution) (x : LoggedObject) (l : Option Int)
    (result : Except PyError Unit) (m : Option Int) (s : Store) : Prop :=
  (∃ e, result = .error e ∧ m = none ∧ Full .artifact s) ∨
    result = .ok () ∧ ∃ id a, m = some id ∧ s.findItem .artifact id = some a ∧
      (l = none → StandsFor dumps self x a s) ∧ ∀ i, l = some i → i = id

theorem LogEnds.grows {self : Execution} {x : LoggedObject} {l m : Option Int}
    {result : Except PyError Unit} (hends : LogEnds dumps self x l result m s)
    (hgrows : s.Grows t) : LogEnds dumps self x l result m t := by
  rcases hends with ⟨e, hresult, hm, hfull⟩ | ⟨hresult, id, a, hm, ha, hstands, hl⟩
  · exact Or.inl ⟨e, hresult, hm, hfull.grows hgrows⟩
  · exact Or.inr ⟨hresult, id, a, hm, hgrows.findItem ha, fun hnone =>
      (hstands hnone).grows hgrows, hl⟩

/-- An exception leaves the object without an id. -/
theorem LogEnds.returns {self : Execution} {x : LoggedObject} {l : Option Int} {id : Int}
    {result : Except PyError Unit} (hends : LogEnds dumps self x l result (some id) s) :
    result = .ok () := by
  rcases hends with ⟨e, -, hnone, -⟩ | ⟨hok, -⟩
  · cases hnone
  · exact hok

/-- A procedure with the id of an object, among others that add to the store. -/
abbrev WorkingOn (E : Effect api Store) (P : Store → Prop)
    (post : Except PyError α → Option Int → Store → Prop)
    (x : Procedure api (Option Int) PyError α) (s : Store) (l : Option Int) : Prop :=
  x.Safe E (fun t => Serving t ∧ P t) Store.Grows AddsOnly post s l

/-- How an artifact is stored that has no duplicate, the last part of logging it. -/
def Execution.storeNew (self : Execution) (ser : Artifact) :
    Procedure api (Option Int) PyError Unit := do
  let ids ← .lift (retry (.putItems .artifact [ser]))
  let id ← .lift (ofResult (firstOf ids))
  set (some id)
  .lift (retry (.putAttributionsAndAssociations [⟨self.workspace.contextId, id⟩] []))

/-- How a duplicate is searched, the part before that. -/
def Execution.findOrStore (self : Execution) (artifact : ArtifactObject) (ser : Artifact) :
    Procedure api (Option Int) PyError Unit := do
  let pbs ← .lift (retry (.getArtifactsByURI artifact.uri))
  match pbs.find? (artifact.isDuplicated ser) with
  | some pb => set (some (pb.id.getD 0))
  | none => self.storeNew ser

section Logging

variable (hE : Obliging E) {self : Execution} {w : Context}
  (hworkspace : s.findItem .context self.workspace.contextId = some w)
include hE hworkspace

/-- Storing an object for which no duplicate is known. -/
theorem working_storeNew {x : LoggedObject} {typeId : Int}
    (hnamed : TypeNamed s .artifact x.type.getName x.type.properties typeId) :
    WorkingOn E P (LogEnds dumps self x none) (self.storeNew (x.message dumps typeId self))
      s none := by
  have hput := working_putItem (P := P) hE (r := .artifact) hnamed
    (x := x.message dumps typeId self) (x.serialization_blank dumps).2 rfl
    fun name value => x.serialization_declared dumps
  refine Procedure.safe_bind (fun result m t => m = none ∧ s.Grows t ∧
    ((∃ id, result = .ok [id] ∧ t.findItem .artifact id =
        some (x.stored dumps typeId self id)) ∨
      (∃ e, result = .error e) ∧ Full .artifact t)) grows_refl grows_trans
    (Procedure.safe_lift grows_refl grows_trans ?_) ?_ ?_
  · exact (Working.grown hput).mono fun result t _ hresult => ⟨rfl, hresult.2, hresult.1⟩
  · rintro ids m t - ⟨rfl, hst, ⟨id, hids, hstored⟩ | ⟨⟨e, he⟩, -⟩⟩
    · obtain rfl := Except.ok.inj hids
      have hattribute := working_putAttribution (P := P) hE hstored (hst.findItem hworkspace)
      have hstands : StandsFor dumps self x (x.stored dumps typeId self id) t :=
        ⟨typeId, hnamed.grows hst, Or.inl rfl⟩
      -- The id is taken from the list and assigned without a call.
      show WorkingOn E P _ (.lift (retry
        (.putAttributionsAndAssociations [⟨self.workspace.contextId, id⟩] []))) t (some id)
      refine Procedure.safe_lift grows_refl grows_trans ?_
      refine (Working.grown hattribute).mono fun result u _ hresult => Or.inr ⟨hresult.1, id, _,
        rfl, hresult.2.findItem hstored, fun _ => hstands.grows hresult.2, fun i hi => ?_⟩
      cases hi
    · cases he
  · rintro e m t - ⟨rfl, -, ⟨id, hids, -⟩ | ⟨-, hfull⟩⟩
    · cases hids
    · exact Or.inl ⟨e, rfl, rfl, hfull⟩

/-- Logging an object without an id, once its type is found. -/
theorem working_logNew {x : LoggedObject} {typeId : Int}
    (hnamed : TypeNamed s .artifact x.type.getName x.type.properties typeId) :
    WorkingOn E P (LogEnds dumps self x none)
      (self.findOrStore (x.object dumps) (x.message dumps typeId self)) s none := by
  have hlookup : Working E P (fun result t => s.Grows t ∧ ∃ pbs, result = .ok pbs ∧
      ∀ pb ∈ pbs, t.findItem .artifact (pb.id.getD 0) = some pb)
      (retry (.getArtifactsByURI (x.object dumps).uri)).run s := by
    apply working_retry hE.toLawful.sound (.getArtifactsByURI (x.object dumps).uri) trivial
    intro t reply u hst hserving heffect v huv
    obtain ⟨rfl, pbs, rfl, hperm⟩ := hE.getArtifactsByURI heffect
    refine ⟨grows_trans _ _ _ hst huv, pbs, rfl, fun pb hpb => ?_⟩
    have hmem := (List.mem_filter.mp (hperm.mem_iff.mp hpb)).1
    obtain ⟨id, hid, -⟩ := hserving.numbered .artifact pb hmem
    have hfound : u.findItem .artifact id = some pb :=
      (Keyed.find_eq_some_iff (u.wellFormed.itemIds .artifact)).mpr ⟨hmem, hid⟩
    rw [hid]
    exact huv.findItem hfound
  refine Procedure.safe_bind (fun result m t => m = none ∧ s.Grows t ∧ ∃ pbs, result = .ok pbs ∧
      ∀ pb ∈ pbs, t.findItem .artifact (pb.id.getD 0) = some pb) grows_refl grows_trans
    (Procedure.safe_lift grows_refl grows_trans
      (hlookup.mono fun result t _ hresult => ⟨rfl, hresult⟩)) ?_ ?_
  · rintro pbs m t - ⟨rfl, hst, _, hok, hpbs⟩
    obtain rfl := Except.ok.inj hok
    cases hfound : pbs.find? ((x.object dumps).isDuplicated (x.message dumps typeId self)) with
    | none => exact working_storeNew hE (hst.findItem hworkspace) (hnamed.grows hst)
    | some pb =>
        refine Procedure.safe_set fun u htu _ => ?_
        have hstored := hpbs pb (List.mem_of_find?_eq_some hfound)
        refine Or.inr ⟨rfl, pb.id.getD 0, pb, rfl, htu.findItem hstored, fun _ => ?_, ?_⟩
        · exact ⟨typeId, (hnamed.grows hst).grows htu, Or.inr (List.find?_some hfound)⟩
        · intro i hi
          cases hi
  · rintro e m t - ⟨-, -, _, hok, -⟩
    cases hok

omit hworkspace in
/-- The type of an object is found. -/
theorem working_logType (dumps : Dumps) (x : LoggedObject) :
    Working E P (fun result t => ∃ record, result = .ok record ∧
      TypeNamed t .artifact (x.object dumps).typeName x.type.properties record.getId)
      (ExceptT.adapt (PyError.valueErrorFrom "invalid artifact type %s: exception %s"
        [.text (x.object dumps).typeName])
        (retry (.getType .artifact (x.object dumps).typeName))).run s := by
  have htype := working_getType (P := P) (s := s) hE x.type_mem
  rw [x.getName_type dumps] at htype
  refine Safe.map grows_refl grows_trans (htype.mono ?_)
  rintro result t - ⟨record, rfl, hnamed⟩
  exact ⟨record, rfl, hnamed⟩

/-- Logging an object that is new, or whose id is that of a stored artifact. -/
theorem working_log {x : LoggedObject} {l : Option Int}
    (hknown : ∀ id, l = some id → ∃ a, s.findItem .artifact id = some a) :
    WorkingOn E P (LogEnds dumps self x l) (self.log (x.object dumps)) s l := by
  have hadapted := Working.grown (working_logType (P := P) (s := s) hE dumps x)
  refine Procedure.safe_bind (fun result m t => m = l ∧ (∃ record, result = .ok record ∧
      TypeNamed t .artifact (x.object dumps).typeName x.type.properties record.getId) ∧ s.Grows t)
    grows_refl grows_trans (Procedure.safe_lift grows_refl grows_trans
      (hadapted.mono fun result t _ hresult => ⟨rfl, hresult⟩)) ?_ ?_
  · rintro record m t hinv ⟨rfl, ⟨_, hrecord, hnamed⟩, hst⟩
    obtain rfl := Except.ok.inj hrecord
    cases m with
    | some id =>
        obtain ⟨a, ha⟩ := hknown id rfl
        show WorkingOn E P _ (.lift (checkArtifactId id)) t (some id)
        refine Procedure.safe_lift grows_refl grows_trans ?_
        refine (Working.grown (working_checkArtifactId hE (hst.findItem ha))).mono ?_
        rintro result u - ⟨rfl, htu⟩
        refine Or.inr ⟨rfl, id, a, rfl, htu.findItem (hst.findItem ha), fun hnone => ?_,
          fun i hi => (Option.some.inj hi).symm⟩
        cases hnone
    | none =>
        rw [← x.getName_type dumps] at hnamed
        show WorkingOn E P _ (Procedure.lift (ofResult (serializationOf self (x.object dumps)
          record.getId)) >>= _) t none
        rw [serializationOf_loggedObject]
        exact working_logNew hE (hst.findItem hworkspace) hnamed
  · rintro e m t - ⟨-, ⟨_, hrecord, -⟩, -⟩
    cases hrecord

/-- How a call that logs an object as an input or output ends. -/
def LogAsEnds (dumps : Dumps) (type : EventType) (self : Execution) (x : LoggedObject)
    (l : Option Int) (result : Except PyError Unit) (m : Option Int) (s : Store) : Prop :=
  LogEnds dumps self x l result m s ∧
    (result = .ok () → ∃ now, (⟨m, self.id, type, none⟩ : Event).stamp now ∈ s.contents.events)

/-- Logging an object and the event that links it to an execution that is stored. -/
theorem working_logAs {type : EventType} (htype : type ≠ .unknown) {n : Int} {y : Mlmd.Execution}
    (hid : self.id = some n) (hself : s.findItem .execution n = some y) {x : LoggedObject}
    {l : Option Int} (hknown : ∀ id, l = some id → ∃ a, s.findItem .artifact id = some a) :
    WorkingOn E P (LogAsEnds dumps type self x l)
      (self.logAs type (some (x.object dumps))) s l := by
  have hlog : WorkingOn E P (fun result m t => LogEnds dumps self x l result m t ∧ s.Grows t)
      (self.log (x.object dumps)) s l := Working.grown (working_log hE hworkspace hknown)
  refine Procedure.safe_bind _ grows_refl grows_trans hlog ?_ ?_
  · rintro ⟨⟩ m t - ⟨⟨e, he, -⟩ | ⟨-, id, a, rfl, ha, hstands, hl⟩, hst⟩
    · cases he
    · show WorkingOn E P _ (.lift (retry (.putEvents [some ⟨some id, self.id, type, none⟩]))) t
        (some id)
      refine Procedure.safe_lift grows_refl grows_trans ?_
      apply working_retry hE.toLawful.sound (.putEvents _) trivial
      intro u reply v htu _ heffect v' hvv'
      have hartifact : (u.findItem .artifact id).isSome := by
        rw [htu.findItem ha]
        rfl
      have hexecution : (u.findItem .execution n).isSome := by
        rw [htu.findItem (hst.findItem hself)]
        rfl
      have hends : EndpointsStored u.contents ⟨some id, self.id, type, none⟩ :=
        ⟨htype, ⟨id, rfl, hartifact⟩, n, hid, hexecution⟩
      obtain ⟨rfl, now, hevent⟩ := hE.putEvent hends heffect
      have hinserts : Call.Inserts (.putEvents [some ⟨some id, self.id, type, none⟩]) := trivial
      have huv : u.Grows v := hE.toLawful.sound.grows hinserts heffect
      have hgrown : t.Grows v' := grows_trans _ _ _ htu (grows_trans _ _ _ huv hvv')
      refine ⟨Or.inr ⟨rfl, id, a, rfl, hgrown.findItem ha, fun hnone =>
        (hstands hnone).grows hgrown, hl⟩, fun _ => ⟨now, hvv'.events.subset hevent⟩⟩
  · rintro e m t - ⟨hends, -⟩
    refine ⟨?_, fun hok => by cases hok⟩
    rcases hends with ⟨e', he', hm, hfull⟩ | ⟨hok, -⟩
    · exact Or.inl ⟨e, rfl, hm, hfull⟩
    · cases hok

end Logging

/-! ## Constructing executions -/

/-- How a construction ends: with an execution of these attributes, which is stored as it is
written, with the type of executions, or the store is full. -/
def ConstructionEnds (name : String) (workspace : Workspace) (run : Option Run)
    (description : Option String) (createTime : String) (result : Except PyError Execution)
    (s : Store) : Prop :=
  (∃ e, result = .error e ∧ Full .execution s) ∨
    ∃ id typeId, ∃ self : Execution,
      self = ⟨some id, name, workspace, run, description, createTime, typeId⟩ ∧
        result = .ok self ∧
        TypeNamed s .execution executionType.getName executionType.properties typeId ∧
        s.findItem .execution id = some { self.serialized with id := some id }

theorem working_newExecution (hE : Obliging E) {workspace : Workspace} {w : Context}
    (hworkspace : s.findItem .context workspace.contextId = some w) (name : String)
    (run : Option Run) (description : Option String) (createTime : String) :
    Working E P (ConstructionEnds name workspace run description createTime)
      (newExecution (some name) (some workspace) run description createTime).run s := by
  have hmem : (Resource.execution, executionType) ∈ shippedTypes :=
    List.mem_of_elem_eq_true rfl
  have htype := Working.grown (working_getType (P := P) (s := s) hE hmem)
  unfold newExecution
  rw [ExceptT.run_bind]
  refine Safe.bind _ grows_refl grows_trans htype fun result t hinv hresult => ?_
  obtain ⟨⟨type, rfl, hnamed⟩, hst⟩ := hresult t (grows_refl t) hinv
  let self : Execution := ⟨none, name, workspace, run, description, createTime, type.getId⟩
  have hput := Working.grown (working_putItem (P := P) hE (r := .execution) hnamed
    (x := self.serialized) rfl rfl fun name value => self.serialized_declared)
  show Working E P _ (ExceptT.run (retry (.putItems .execution [self.serialized]) >>= _)) t
  rw [ExceptT.run_bind]
  refine Safe.bind _ grows_refl grows_trans hput fun result u hinv hresult => ?_
  obtain ⟨⟨id, rfl, hstored⟩ | ⟨⟨e, rfl⟩, -⟩, htu⟩ := hresult u (grows_refl u) hinv
  · have hassociate := Working.grown (working_putAssociation (P := P) hE hstored
      (htu.findItem (hst.findItem hworkspace)))
    show Working E P _ (ExceptT.run (retry
      (.putAttributionsAndAssociations [] [⟨workspace.contextId, id⟩]) >>= _)) u
    rw [ExceptT.run_bind]
    refine Safe.bind _ grows_refl grows_trans hassociate fun result v hinv hresult => ?_
    obtain ⟨rfl, huv⟩ := hresult v (grows_refl v) hinv
    refine Safe.pure fun v' hvv' _ => Or.inr ⟨id, type.getId, _, rfl, rfl, ?_, ?_⟩
    · exact hnamed.grows (grows_trans _ _ _ (grows_trans _ _ _ htu huv) hvv')
    · exact hvv'.findItem (huv.findItem hstored)
  · refine Safe.pure fun v huv hinv' => Or.inl ⟨e, rfl, ?_⟩
    rcases (hresult v huv hinv').1 with ⟨id, hok, -⟩ | ⟨-, hfull⟩
    · cases hok
    · exact hfull

end KfMetadata.Sdk
