/-
# Deduplication of models and data sets

While every call of the store is answered, the artifacts of the two classes that the
client has stored have different keys. Before an object without an id is stored, the
store is searched under the object's address. That is enough, since the address is part
of the key, and what is found is compared as it was stored: the messages that the client
writes leave out what is empty, so they are duplicates exactly if they have one key.
-/

import KfMetadata.Sdk.Artifacts
import KfMetadata.Sdk.Session

namespace KfMetadata.Sdk

open Mlmd Remote

/-- An artifact of one of the two classes. -/
def IsLogged (c : Contents) (a : Artifact) : Prop :=
  ∃ typeName ∈ [DataSet.artifactTypeName, Model.artifactTypeName],
    ∃ type, c.findType .artifact typeName = some type ∧ a.typeId.getD 0 = type.id

/-- The artifacts of the two classes have ids, are written as the client writes them, and
have different keys. -/
structure Deduplicated (c : Contents) : Prop where
  tidy : ∀ a ∈ c.items .artifact, IsLogged c a → a.id.isSome ∧ Tidy a
  distinct : (c.items .artifact).Pairwise fun a b =>
    IsLogged c a → IsLogged c b → keyOf a ≠ keyOf b

/-- An artifact with the key is stored and has the id, unless there is one already: then
none is stored, and the id is that of the only artifact with the key. -/
def StoredOnce (artifacts : List Artifact) (key : Key) (artifacts' : List Artifact)
    (id : Option Int) : Prop :=
  ((∀ a ∈ artifacts, keyOf a ≠ key) ∧
    ∃ a, artifacts' = artifacts ++ [a] ∧ keyOf a = key ∧ a.id.isSome ∧ id = a.id) ∨
  (artifacts' = artifacts ∧
    ∃ a ∈ artifacts, keyOf a = key ∧ id = a.id ∧ ∀ b ∈ artifacts, keyOf b = key → b = a)

variable {c d : Contents}

/-- Whatever has the key of an object is of a class that the client brings. -/
theorem isLogged_of_key {x : Loggable} {type : StoredType} {self : Execution} {a : Artifact}
    (htype : c.findType .artifact x.object.typeName = some type)
    (hkey : keyOf a = x.key type.id self) : IsLogged c a := by
  refine ⟨x.object.typeName, ?_, type, htype, congrArg Key.typeId hkey⟩
  cases x with
  | dataSet self => exact List.mem_cons_self
  | model self => exact List.mem_cons_of_mem _ List.mem_cons_self

theorem isLogged_congr (htypes : d.types = c.types) (a : Artifact) :
    IsLogged d a ↔ IsLogged c a := by
  simp only [IsLogged, Contents.findType, htypes]

theorem Deduplicated.congr (hinv : Deduplicated c) (htypes : d.types = c.types)
    (hitems : d.items .artifact = c.items .artifact) : Deduplicated d where
  tidy a ha hlogged := hinv.tidy a (hitems ▸ ha) ((isLogged_congr htypes a).mp hlogged)
  distinct := by
    simp only [isLogged_congr htypes, hitems]
    exact hinv.distinct

/-- At most one artifact has the key of an object. -/
theorem Deduplicated.unique (hinv : Deduplicated c) {a b : Artifact}
    (ha : a ∈ c.items .artifact) (hb : b ∈ c.items .artifact) (hlogged : IsLogged c a)
    (hlogged' : IsLogged c b) (hkey : keyOf a = keyOf b) : a = b := by
  by_contra hne
  have hsymm : Std.Symm fun a b => IsLogged c a → IsLogged c b → keyOf a ≠ keyOf b :=
    ⟨fun a b hdistinct hb ha => (hdistinct ha hb).symm⟩
  exact hinv.distinct.forall ha hb hne hlogged hlogged' hkey

/-- An artifact with a new key may be stored. -/
theorem Deduplicated.addItem (hinv : Deduplicated c) {a : Artifact} (htidy : Tidy a) (id : Int)
    (hnew : ∀ b ∈ c.items .artifact, keyOf b ≠ keyOf a) :
    Deduplicated (c.addItem .artifact { a with id := some id }) where
  tidy b hb hlogged := by
    rw [Contents.items_addItem_self] at hb
    rcases List.mem_append.mp hb with hold | hlast
    · exact hinv.tidy b hold hlogged
    · rw [List.mem_singleton.mp hlast]
      exact ⟨rfl, htidy.uri, htidy.name, htidy.version⟩
  distinct := by
    rw [Contents.items_addItem_self, List.pairwise_append]
    refine ⟨hinv.distinct, List.pairwise_singleton _ _, ?_⟩
    intro b hb a' ha' _ _
    rw [List.mem_singleton.mp ha']
    exact hnew b hb

/-! ## The search for a duplicate -/

section Search

variable {x : Loggable} {self : Execution} {type : StoredType} {pbs : List Artifact}

/-- A duplicate that is found is the only artifact with the key. -/
theorem Deduplicated.find_eq_some (hinv : Deduplicated c)
    (htype : c.findType .artifact x.object.typeName = some type)
    (hperm : pbs.Perm ((c.items .artifact).filter fun a => a.uri = some x.object.uri))
    {pb : Artifact} (hfound : pbs.find? (agree (x.stored type.id self)) = some pb) :
    pb.id.isSome ∧ pb ∈ c.items .artifact ∧ keyOf pb = x.key type.id self ∧
      ∀ b ∈ c.items .artifact, keyOf b = x.key type.id self → b = pb := by
  have hmem := (List.mem_filter.mp (hperm.mem_iff.mp (List.mem_of_find?_eq_some hfound))).1
  have hkey : keyOf pb = x.key type.id self :=
    (keyOf_eq_of_agree (List.find?_some hfound)).symm.trans (x.keyOf_stored type.id self)
  have hlogged := isLogged_of_key htype hkey
  refine ⟨(hinv.tidy pb hmem hlogged).1, hmem, hkey, ?_⟩
  intro b hb hkey'
  exact hinv.unique hb hmem (isLogged_of_key htype hkey') hlogged (hkey'.trans hkey.symm)

/-- Where no duplicate is found, no artifact has the key, under any address. -/
theorem Deduplicated.find_eq_none (hinv : Deduplicated c)
    (htype : c.findType .artifact x.object.typeName = some type)
    (hperm : pbs.Perm ((c.items .artifact).filter fun a => a.uri = some x.object.uri))
    (hnone : pbs.find? (agree (x.stored type.id self)) = none) :
    ∀ a ∈ c.items .artifact, keyOf a ≠ x.key type.id self := by
  intro a ha hkey
  obtain ⟨-, htidy⟩ := hinv.tidy a ha (isLogged_of_key htype hkey)
  -- The address is part of the key, so the search comes across the artifact.
  obtain ⟨uri, huri⟩ := Option.isSome_iff_exists.mp htidy.uri
  have hsame : a.uri.getD "" = x.attributes.uri := congrArg Key.uri hkey
  rw [huri, Option.getD_some] at hsame
  have hmem : a ∈ pbs := by
    rw [hperm.mem_iff, List.mem_filter, x.uri_object, huri, hsame]
    exact ⟨ha, decide_eq_true rfl⟩
  have hagree := (x.tidy_stored type.id self).agree htidy
    ((x.keyOf_stored type.id self).trans hkey.symm)
  exact List.find?_eq_none.mp hnone a hmem hagree

end Search

/-! ## Answered calls -/

variable {s t : Store} {l m : Option Int} {r : Except PyError Unit} {self : Execution}

theorem documented_of_answered (op : Call) {result : op.Result}
    (hcall : attempt .replied op s (.ok result) t) :
    Documented op s.contents result t.contents := by
  obtain ⟨result', hreply, hdoc⟩ := hcall
  cases hreply
  exact hdoc

theorem read_of_answered (op : Call) {result : op.Result} (hread : op.IsRead)
    (hcall : attempt .replied op s (.ok result) t) : t = s :=
  attempt_read hread hcall

/-- A call that is answered raises nothing. -/
theorem not_runs_retry_error (op : Call) (e : PyError) (t : Store) :
    ¬ (retry op).run.Runs (attempt .replied) s (.error e) t := by
  intro hrun
  obtain ⟨message, -, result, hreply, -⟩ := (runs_callOr_error op).mp hrun
  cases hreply

theorem not_runs_adapt_error (op : Call) (f : PyError → PyError) (e : PyError) (t : Store) :
    ¬ (ExceptT.adapt f (retry op)).run.Runs (attempt .replied) s (.error e) t := by
  intro hrun
  obtain ⟨e', -, hretry⟩ := Program.runs_adapt_error.mp hrun
  exact not_runs_retry_error op e' t hretry

/-- Whether an id is found or not, the store is only read. -/
theorem runs_checkArtifactId_state {id : Int}
    (hrun : (checkArtifactId id).run.Runs (attempt .replied) s r t) : t = s := by
  rw [checkArtifactId, Program.runs_run_bind] at hrun
  rcases hrun with ⟨e, -, herror⟩ | ⟨pbs, u, hfind, hrest⟩
  · exact absurd herror (not_runs_adapt_error _ _ e t)
  · have hread := read_of_answered (.getItemsByID .artifact [id]) trivial
      ((runs_retry_ok _).mp (Program.runs_adapt_ok.mp hfind))
    split at hrest
    · rw [← (Program.runs_run_pure.mp hrest).2, hread]
    · rw [← (Program.runs_run_throw.mp hrest).2, hread]

/-- Logging an object that has an id only reads the store. -/
theorem runs_log_state {x : ArtifactObject} {id : Int}
    (hrun : (self.log x).Runs (attempt .replied) s (some id) r t m) : t = s := by
  obtain ⟨type, u, htype, hrun⟩ :=
    Procedure.runs_lift_bind_of_returns (not_runs_adapt_error _ _) hrun
  have hread := read_of_answered (.getType .artifact x.typeName) trivial
    ((runs_retry_ok _).mp (Program.runs_adapt_ok.mp htype))
  have hrest := Procedure.runs_get_bind.mp hrun
  rw [runs_checkArtifactId_state (Procedure.runs_lift.mp hrest).1, hread]

/-- An insertion that is answered returns an id. -/
theorem not_runs_firstOf_error {ser : Artifact} {ids : List Int} {u : Store}
    (hput : (retry (.putItems .artifact [ser])).run.Runs (attempt .replied) s (.ok ids) t)
    (e : PyError) : ¬ (ofResult (firstOf ids)).run.Runs (attempt .replied) t (.error e) u := by
  obtain ⟨id, rest, c', hids, -, -⟩ :=
    documented_of_answered (.putItems .artifact [ser]) ((runs_retry_ok _).mp hput)
  rw [hids, runs_ofResult]
  intro hfirst
  cases hfirst.1

/-- Logging an object without an id returns. -/
theorem runs_log_returns {x : Loggable}
    (hrun : (self.log x.object).Runs (attempt .replied) s none r t m) : r = .ok () := by
  obtain ⟨type, u, -, hrun⟩ :=
    Procedure.runs_lift_bind_of_returns (not_runs_adapt_error _ _) hrun
  have hrest := Procedure.runs_get_bind.mp hrun
  obtain ⟨ser, u', -, hrun⟩ := Procedure.runs_lift_bind_of_returns (fun e v hser => by
    rw [runs_ofResult, x.serializationOf_object] at hser
    cases hser.1) hrest
  obtain ⟨pbs, v, -, hrun⟩ := Procedure.runs_lift_bind_of_returns (not_runs_retry_error _) hrun
  cases hfound : pbs.find? (x.object.isDuplicated ser) with
  | some pb =>
      simp only [hfound] at hrun
      exact (Procedure.runs_set.mp hrun).1.symm
  | none =>
      simp only [hfound] at hrun
      obtain ⟨ids, v', hput, hrun⟩ :=
        Procedure.runs_lift_bind_of_returns (not_runs_retry_error _) hrun
      obtain ⟨id, v'', -, hrun⟩ := Procedure.runs_lift_bind_of_returns
        (fun e _ => not_runs_firstOf_error hput e) hrun
      have hrest := Procedure.runs_set_bind.mp hrun
      cases r with
      | ok _ => rfl
      | error e => exact absurd (Procedure.runs_lift.mp hrest).1 (not_runs_retry_error _ e t)

/-- The event that is put after logging leaves the artifacts alone, and is answered. -/
theorem runs_logAs {type : EventType} {x : ArtifactObject}
    (hrun : (self.logAs type (some x)).Runs (attempt .replied) s l r t m) :
    ∃ u, (self.log x).Runs (attempt .replied) s l r u m ∧
      t.contents.types = u.contents.types ∧
      t.contents.items .artifact = u.contents.items .artifact := by
  rcases Procedure.runs_bind.mp hrun with ⟨e, rfl, hlog⟩ | ⟨_, u, k, hlog, hrest⟩
  · exact ⟨t, hlog, rfl, rfl⟩
  · have hrest := Procedure.runs_get_bind.mp hrest
    obtain ⟨hevent, rfl⟩ := Procedure.runs_lift.mp hrest
    cases r with
    | error e => exact absurd hevent (not_runs_retry_error _ e t)
    | ok _ =>
        have hput := documented_of_answered (.putEvents _) ((runs_retry_ok _).mp hevent)
        exact ⟨u, hlog, hput.leaves trivial⟩

/-! ## One call -/

/-- What is known when the store has been searched: the type, the message, and that
nothing has changed. -/
theorem search_of_answered {x : Loggable} {type : TypeRecord} {ser : Artifact}
    {pbs : List Artifact} {u v : Store}
    (htype : attempt .replied (.getType .artifact x.object.typeName) s (.ok type) u)
    (hser : serializationOf self x.object type.getId = .ok ser)
    (hlist : attempt .replied (.getArtifactsByURI x.object.uri) u (.ok pbs) v) :
    ∃ stored, s.contents.findType .artifact x.object.typeName = some stored ∧
      ser = x.stored stored.id self ∧ v.contents = s.contents ∧
      pbs.Perm ((s.contents.items .artifact).filter fun a => a.uri = some x.object.uri) := by
  obtain ⟨hu, hname⟩ := documented_of_answered (.getType ..) htype
  obtain ⟨hv, hperm⟩ := documented_of_answered (.getArtifactsByURI _) hlist
  obtain ⟨stored, hstored, rfl⟩ := Option.map_eq_some_iff.mp hname
  rw [x.serializationOf_object] at hser
  rw [hu] at hv hperm
  exact ⟨stored, hstored, (Except.ok.inj hser).symm, hv, hperm⟩

/-- Logging an object without an id stores it once, and keeps the keys distinct. -/
theorem LogExit.storedOnce {x : Loggable}
    (hexit : LogExit (attempt .replied) self x.object s none t m)
    (hinv : Deduplicated s.contents) :
    ∃ type, s.contents.findType .artifact x.object.typeName = some type ∧
      StoredOnce (s.contents.items .artifact) (x.key type.id self) (t.contents.items .artifact) m ∧
      Deduplicated t.contents := by
  cases hexit with
  | @duplicate u _ _ ser pb pbs htype hser hlist hfound =>
      obtain ⟨type, hstored, rfl, ht, hperm⟩ := search_of_answered htype hser hlist
      rw [x.isDuplicated_object] at hfound
      rw [ht]
      obtain ⟨hid, hmem, hkey, honly⟩ := hinv.find_eq_some hstored hperm hfound
      obtain ⟨id, hid⟩ := Option.isSome_iff_exists.mp hid
      refine ⟨type, hstored, Or.inr ⟨rfl, pb, hmem, hkey, ?_, honly⟩, hinv⟩
      rw [hid, Option.getD_some]
  | @stored u v y _ _ ser pbs id rest htype hser hlist hnone hput hmember =>
      obtain ⟨type, hstored, rfl, hv, hperm⟩ := search_of_answered htype hser hlist
      rw [x.isDuplicated_object] at hnone
      have hnew := hinv.find_eq_none hstored hperm hnone
      have hfresh : (x.stored type.id self).id = none := by cases x <;> rfl
      obtain ⟨id', hids, -, -, -, -, hy⟩ := (putItems_singleton hfresh).mp
        (documented_of_answered (.putItems ..) hput)
      cases hids
      rw [hv] at hy
      have hkey := x.keyOf_stored type.id self
      have hitems : y.contents.items .artifact = s.contents.items .artifact ++
          [{ x.stored type.id self with id := some id }] := by
        rw [hy]
        exact Contents.items_addItem_self _
      have hlater : Deduplicated y.contents := by
        rw [hy]
        exact hinv.addItem (x.tidy_stored type.id self) id (by rwa [hkey])
      obtain ⟨-, -, ht⟩ := documented_of_answered (.putAttributionsAndAssociations ..) hmember
      rw [ht]
      exact ⟨type, hstored, Or.inl ⟨hnew, _, hitems, hkey, rfl, rfl⟩, hlater.congr rfl rfl⟩

/-- What logging an object does to the artifacts, when every call is answered. -/
structure LoggedOnce (self : Execution) (x : Loggable) (s : Contents) (l : Option Int)
    (r : Except PyError Unit) (t : Contents) (m : Option Int) : Prop where
  known : ∀ id, l = some id → t.items .artifact = s.items .artifact ∧ m = some id
  new : l = none → r = .ok () ∧ ∃ type, s.findType .artifact x.object.typeName = some type ∧
    StoredOnce (s.items .artifact) (x.key type.id self) (t.items .artifact) m

theorem loggedOnce_of_runs {type : EventType} {x : Loggable}
    (hrun : (self.logAs type (some x.object)).Runs (attempt .replied) s l r t m)
    (hinv : Deduplicated s.contents) :
    LoggedOnce self x s.contents l r t.contents m ∧ Deduplicated t.contents := by
  obtain ⟨u, hlog, htypes, hitems⟩ := runs_logAs hrun
  cases l with
  | some id =>
      obtain rfl := runs_log_state hlog
      refine ⟨⟨?_, nofun⟩, hinv.congr htypes hitems⟩
      intro id' hid
      cases hid
      exact ⟨hitems, runs_log_known hlog⟩
  | none =>
      obtain rfl := runs_log_returns hlog
      obtain ⟨type, htype, honce, hlater⟩ := (logExit_of_runs hlog).storedOnce hinv
      refine ⟨⟨nofun, fun _ => ⟨rfl, type, htype, ?_⟩⟩, hlater.congr htypes hitems⟩
      rw [hitems]
      exact honce

/-! ## Every run -/

variable {Ref : Type} [DecidableEq Ref] {objects : Ref → Loggable} {start w v : World Ref}
  {action : Action Ref} {type : EventType} {ref : Ref}

/-- Logging is a run of the program against the answers of the store. -/
theorem Step.loggedOnce (hstep : Step (fun ref => (objects ref).object) w action r v)
    (hatonce : AnsweredAtOnce w.session v.session) (hinv : Deduplicated w.store.contents)
    (hlogs : action.logs = some (type, self, ref)) :
    LoggedOnce self (objects ref) w.store.contents (w.ids ref) r v.store.contents (v.ids ref) ∧
      Deduplicated v.store.contents := by
  obtain ⟨id, hrun, hids⟩ := hstep.logAs hlogs
  rw [hids, Function.update_self]
  exact loggedOnce_of_runs (Program.Runs.of_answeredAtOnce hrun hatonce) hinv

/-- A construction stores an execution, and no artifact. -/
theorem deduplicated_newExecution {name : Option String} {workspace : Option Workspace}
    {run : Option Run} {description : Option String} {createTime : String}
    {e : Except PyError Execution}
    (hrun : (newExecution name workspace run description createTime).run.Runs
      (attempt .replied) s e t) (hinv : Deduplicated s.contents) : Deduplicated t.contents := by
  refine hrun.preserves (P := fun s => Deduplicated s.contents) uses_newExecution ?_ hinv
  intro op u reply u' hleaves hcall hu
  obtain ⟨result, -, hdoc⟩ := hcall
  obtain ⟨htypes, hitems⟩ := hdoc.leaves hleaves
  exact hu.congr htypes hitems

/-- Whatever is called, the keys stay distinct. -/
theorem Step.deduplicated (hstep : Step (fun ref => (objects ref).object) w action r v)
    (hatonce : AnsweredAtOnce w.session v.session) (hinv : Deduplicated w.store.contents) :
    Deduplicated v.store.contents := by
  cases hlogs : action.logs with
  | some logged => exact (hstep.loggedOnce hatonce hinv hlogs).2
  | none =>
      cases hstep with
      | constructed hrun => exact deduplicated_newExecution (hrun.of_answeredAtOnce hatonce) hinv
      | notConstructed hrun =>
          exact deduplicated_newExecution (hrun.of_answeredAtOnce hatonce) hinv
      | loggedInput => cases hlogs
      | loggedOutput => cases hlogs

/-- A store without artifacts of the two classes has none with one key. -/
theorem deduplicated_of_none {c : Contents} (hnone : ∀ a ∈ c.items .artifact, ¬ IsLogged c a) :
    Deduplicated c where
  tidy a ha hlogged := absurd hlogged (hnone a ha)
  distinct := List.Pairwise.imp_mem.mpr <|
    List.pairwise_of_forall fun a _ ha _ hlogged _ => absurd hlogged (hnone a ha)

theorem Calls.deduplicated {calls : List (Action Ref × Except PyError Unit)}
    {condition : World Ref → Action Ref → Prop}
    (hcalls : Calls (fun ref => (objects ref).object) condition start calls w)
    (hatonce : AnsweredAtOnce start.session w.session)
    (hinv : Deduplicated start.store.contents) : Deduplicated w.store.contents := by
  induction hcalls with
  | nil => exact hinv
  | snoc hcalls _ hstep ih =>
      obtain ⟨hearlier, hlast⟩ := hatonce.split hcalls.calls_prefix hstep.calls_prefix
      exact hstep.deduplicated hlast (ih hearlier)

/-- **Models and data sets are stored once.** Start from a store without them, and let
every call of the store be answered. After any calls, no two artifacts of the classes are
duplicates, or have one key. A further call that logs an object stores no artifact if the
object has an id; otherwise the call returns, and stores an artifact exactly if none has
the object's key, and the object takes the id of the one that has it then. -/
theorem artifacts_stored_once {calls : List (Action Ref × Except PyError Unit)}
    (hnone : ∀ a ∈ start.store.contents.items .artifact, ¬ IsLogged start.store.contents a)
    (hcalls : Calls (fun ref => (objects ref).object) (fun _ _ => True) start calls w)
    (hatonce : AnsweredAtOnce start.session w.session) :
    (w.store.contents.items .artifact).Pairwise (fun a b =>
      IsLogged w.store.contents a → IsLogged w.store.contents b →
        keyOf a ≠ keyOf b ∧ ∀ x : Loggable, x.object.isDuplicated a b = false) ∧
    ∀ action r v type self ref, Step (fun ref => (objects ref).object) w action r v →
      AnsweredAtOnce w.session v.session → action.logs = some (type, self, ref) →
      LoggedOnce self (objects ref) w.store.contents (w.ids ref) r v.store.contents
        (v.ids ref) := by
  have hinv := hcalls.deduplicated hatonce (deduplicated_of_none hnone)
  apply And.intro
  · apply hinv.distinct.imp
    intro a b hdistinct ha hb
    refine ⟨hdistinct ha hb, fun x => ?_⟩
    rw [x.isDuplicated_object]
    exact Bool.eq_false_iff.mpr fun hagree => hdistinct ha hb (keyOf_eq_of_agree hagree)
  · intro action r v type self ref hstep hlast hlogs
    exact (hstep.loggedOnce hlast hinv hlogs).1

/-- A store with the type of models, and a constructed execution. -/
def withModels : Recorded api Store where
  state :=
    let properties : StringMap PropertyType := (((Finmap.singleton "name" .string).insert
      "version" .string).insert "create_time" .string).insert allMetaPropertyName .string
    ((call (.putType .artifact ⟨none, some Model.artifactTypeName, properties⟩
      ⟨false, false, true⟩)).run inMemory constructed.state).2
  calls := []

/-- Two objects of one key: the version of the first is missing, that of the second empty. -/
def twins (first : Bool) : Loggable :=
  .model ⟨⟨"gs://m", "m", none, none, if first then none else some "", "2019-01-01", "\x7b\x7d"⟩,
    none⟩

/-- The session after the first twin is logged. -/
def loggedTwin : Recorded api Store :=
  (((trainer.logOutput (some (twins true).object)).run.run none).run answering withModels).2

/-- The session after the second twin is logged. -/
def loggedBoth : Recorded api Store :=
  (((trainer.logInput (some (twins false).object)).run.run none).run answering loggedTwin).2

/-- The second twin is found to be the first one, and stores nothing. -/
theorem artifacts_stored_once_twins :
    (withModels.state.contents.items .artifact).length = 0 ∧
      (loggedTwin.state.contents.items .artifact).length = 1 ∧
      LoggedOnce trainer (twins false) loggedTwin.state.contents none (.ok ())
        loggedBoth.state.contents (some 1) := by
  have hfirst : Step (fun ref => (twins ref).object) ⟨withModels, fun _ => none, [trainer]⟩
      (.logOutput trainer true) (.ok ())
      ⟨loggedTwin, Function.update (fun _ => none) true (some 1), [trainer]⟩ :=
    .loggedOutput (List.mem_singleton_self _)
      ((Procedure.runs_of_run answering rfl).mono fun _ _ _ _ => scripted_recorded)
  have hsecond : Step (fun ref => (twins ref).object)
      ⟨loggedTwin, Function.update (fun _ => none) true (some 1), [trainer]⟩
      (.logInput trainer false) (.ok ())
      ⟨loggedBoth, Function.update (Function.update (fun _ => none) true (some 1)) false (some 1),
        [trainer]⟩ :=
    .loggedInput (List.mem_singleton_self _)
      ((Procedure.runs_of_run answering rfl).mono fun _ _ _ _ => scripted_recorded)
  have honce : ∀ c ∈ loggedTwin.calls, c.2 = [.replied] := by decide +kernel
  have honce' : ∀ c ∈ loggedBoth.calls.drop 5, c.2 = [.replied] := by decide +kernel
  have hempty : withModels.state.contents.items .artifact = [] := rfl
  have hlogged := artifacts_stored_once (by
    show ∀ a ∈ withModels.state.contents.items .artifact, ¬ _
    rw [hempty]
    nofun) (Calls.nil.snoc trivial hfirst) ⟨loggedTwin.calls, rfl, honce⟩
  exact ⟨rfl, rfl, hlogged.2 _ _ _ _ _ _ hsecond ⟨_, rfl, honce'⟩ rfl⟩

end KfMetadata.Sdk
