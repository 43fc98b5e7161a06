/-
# Exactly one artifact per logged object

Logging an object is a lookup and an insertion in two separate calls, either of
which may fail before or after it has taken effect, and is then repeated. It
still logs every object once, because only one logger writes artifacts of a type
and it handles one event at a time: between its lookup and its insertion nobody
else adds an artifact of the type, and an insertion that fails after its effect is
found by the next lookup.

Each resource is one client, with the logger it has created as its memory. Its
jobs are to create a logger and to handle an event; which events it handles, and
how often, is left open, as the queue may deliver and repeat them in any way.
Other clients of the store are the environment: they may make any calls that leave
the artifacts of the watched types alone.
-/

import KfMetadata.Library.ConcurrentClients
import KfMetadata.Mlmd.Consistent
import KfMetadata.Mlmd.InMemory
import KfMetadata.Watcher.MetaLogger

namespace KfMetadata.Watcher

open Mlmd Remote Remote.Program

variable {Object ι : Type} (cluster : Cluster Object) (resources : ι → GroupVersionKind)

/-! ## The system -/

/-- What the client of a resource does. -/
inductive Job (Object : Type)
  | create
  | handle (e : Event Object)

/-- What a job ends in. -/
inductive Answer
  | created (result : Except GoError MetaLogger)
  | handled (result : Except GoError Unit)

/-- The loggers of the resources. Creating one may be tried at any time; events are
handled by the one created last. -/
def loggers : Clients api ι (Option MetaLogger) (Job Object) Answer where
  ready _ memory job :=
    match job with
    | .create => True
    | .handle _ => memory.isSome
  body i memory job :=
    match job, memory with
    | .create, _ => Answer.created <$> (newMetaLogger cluster (resources i)).run
    | .handle e, some l => Answer.handled <$> (handleEvent cluster l e).run
    | .handle _, none => pure (.handled (.ok ()))
  resume _ memory _ answer :=
    match answer with
    | .created (.ok l) => some l
    | _ => memory

/-- The artifacts of the watched types. -/
def watched (i : ι) (s : Store) : List Artifact :=
  s.contents.itemsOfType .artifact (metadataArtifactType cluster (resources i))

/-- How many artifacts of a watched type were logged under a UID. -/
def copies (i : ι) (uid : String) (s : Store) : Nat :=
  ((watched cluster resources i s).map versionOf).count uid

/-- Other clients make calls that leave the artifacts of watched types alone. -/
def others (E : Effect api Store) (s t : Store) : Prop :=
  ∃ op reply, E op s reply t ∧
    ∀ i, watched cluster resources i t = watched cluster resources i s

/-- A consistent store that logs no object of a watched resource twice. -/
structure Logged (s : Store) : Prop where
  consistent : s.contents.Consistent
  once : ∀ i uid, uid ≠ "" → copies cluster resources i uid s ≤ 1

/-! ## Rely and guarantee -/

/-- The logger is for this resource, and has the id of its type. -/
def Knows (i : ι) (memory : Option MetaLogger) (s : Store) : Prop :=
  ∀ l, memory = some l → l.resource = resources i ∧
    ∃ t, s.findType .artifact (metadataArtifactType cluster (resources i)) = some t ∧
      t.id = l.typeID

/-- What a logger's calls do: types grow, artifacts of its own type may be added, and
none of any other watched type. -/
structure Guar (i : ι) (s t : Store) : Prop where
  types : s.contents.TypesGrow t.contents
  own : watched cluster resources i s <+: watched cluster resources i t
  other : ∀ j, j ≠ i → watched cluster resources j t = watched cluster resources j s
  logged : Logged cluster resources s → Logged cluster resources t

/-- What everyone else does, as one logger sees it. -/
structure Rely (i : ι) (s t : Store) : Prop where
  types : s.contents.TypesGrow t.contents
  same : watched cluster resources i t = watched cluster resources i s

/-- What a job has established when it ends. -/
def Post (i : ι) (memory : Option MetaLogger) (job : Job Object) (answer : Answer)
    (s : Store) : Prop :=
  Knows cluster resources i memory s ∧
    (∀ l, answer = .created (.ok l) → Knows cluster resources i (some l) s) ∧
    ∀ e object, job = .handle e → e.kind = .addEvent → answer = .handled (.ok ()) →
      decode cluster e.newVal = .ok object → object.uid ≠ "" →
        copies cluster resources i object.uid s = 1

/-- The proof outline of the loggers. -/
def outline : Clients.Outline Store ι (Option MetaLogger) (Job Object) Answer where
  inv := Logged cluster resources
  guar := Guar cluster resources
  rely := Rely cluster resources
  knows := Knows cluster resources
  post := Post cluster resources

variable {cluster resources} {E : Effect api Store} {i : ι} {s t u : Store}

theorem Rely.refl (s : Store) : Rely cluster resources i s s :=
  ⟨Contents.TypesGrow.of_eq rfl, rfl⟩

theorem Rely.trans (hfirst : Rely cluster resources i s t)
    (hsecond : Rely cluster resources i t u) : Rely cluster resources i s u :=
  ⟨hfirst.types.trans hsecond.types, hsecond.same.trans hfirst.same⟩

theorem Rely.copies_eq (hrely : Rely cluster resources i s t) (uid : String) :
    copies cluster resources i uid t = copies cluster resources i uid s := by
  rw [copies, hrely.same, copies]

/-- What a logger knows of its type stays true as types grow. -/
theorem Knows.stable {memory : Option MetaLogger} (hknows : Knows cluster resources i memory s)
    (htypes : s.contents.TypesGrow t.contents) : Knows cluster resources i memory t := by
  intro l hl
  obtain ⟨hresource, v, hv, hid⟩ := hknows l hl
  obtain ⟨w, hw, hwid, -⟩ := htypes.findType s.wellFormed t.wellFormed hv
  exact ⟨hresource, w, hw, hwid.trans hid⟩

/-- Calls that leave the artifacts of watched types alone log nothing twice. -/
theorem Logged.of_same (hlogged : Logged cluster resources s)
    (hconsistent : t.contents.Consistent)
    (hsame : ∀ j, watched cluster resources j t = watched cluster resources j s) :
    Logged cluster resources t where
  consistent := hconsistent
  once j uid huid := by
    rw [copies, hsame j]
    exact hlogged.once j uid huid

theorem Guar.refl (s : Store) : Guar cluster resources i s s :=
  ⟨Contents.TypesGrow.of_eq rfl, List.prefix_rfl, fun _ _ => rfl, fun hlogged => hlogged⟩

theorem Guar.watched_prefix (hguar : Guar cluster resources i s t) (j : ι) :
    watched cluster resources j s <+: watched cluster resources j t := by
  by_cases hj : j = i
  · subst hj
    exact hguar.own
  · rw [hguar.other j hj]

/-! ## The calls of a logger -/

theorem guar_of_outcome (hE : Sound E) {op : Call} {reply : api.Reply op}
    (heffect : E op s reply t) (hdoc : ∀ result, Documented op s.contents result t.contents →
      Guar cluster resources i s t) : Guar cluster resources i s t := by
  rcases hE.outcome heffect with rfl | ⟨result, hdone⟩
  · exact Guar.refl t
  · exact hdoc result hdone

theorem guar_putType (hlogged : Logged cluster resources s) {type : TypeRecord}
    {opts : PutTypeOptions} {id : Int}
    (hdoc : Documented (.putType .artifact type opts) s.contents id t.contents) :
    Guar cluster resources i s t := by
  have hsame (j : ι) : watched cluster resources j t = watched cluster resources j s :=
    PutType.itemsOfType hlogged.consistent hdoc _
  exact ⟨hdoc.typesGrow s.wellFormed, by rw [hsame i], fun j _ => hsame j, fun hlogged =>
    hlogged.of_same (hlogged.consistent.documented s.wellFormed hdoc) hsame⟩

theorem guar_read (hE : Sound E) (op : Call) (hread : op.IsRead) {reply : api.Reply op}
    (heffect : E op s reply t) : Guar cluster resources i s t := by
  rw [hE.read hread heffect]
  exact Guar.refl s

/-- Inserting an artifact of the logger's own type adds it to those of the type. -/
theorem watched_putItems {l : MetaLogger} {artifact : Artifact} {ids : List Int}
    (hnew : artifact.id = none) (htypeId : artifact.typeId = some l.typeID)
    (hknows : Knows cluster resources i (some l) s)
    (hdoc : Documented (.putItems .artifact [artifact]) s.contents ids t.contents) :
    (watched cluster resources i t).map versionOf =
      (watched cluster resources i s).map versionOf ++ [versionOf artifact] := by
  obtain ⟨id, -, -, -, -, -, ht⟩ := (putItems_singleton hnew).mp hdoc
  obtain ⟨-, v, hv, hid⟩ := hknows l rfl
  rw [watched, ht, Contents.itemsOfType_addItem_of_type hv (by rw [htypeId, hid]), List.map_append]
  rfl

/-- Inserting it adds to no other watched type, and to no artifact logged twice. -/
theorem guar_putItems
    (hdistinct : Function.Injective fun i => metadataArtifactType cluster (resources i))
    {l : MetaLogger} {artifact : Artifact} {ids : List Int}
    (hnew : artifact.id = none) (htypeId : artifact.typeId = some l.typeID)
    (hknows : Knows cluster resources i (some l) s)
    (habsent : versionOf artifact ≠ "" → copies cluster resources i (versionOf artifact) s = 0)
    (hdoc : Documented (.putItems .artifact [artifact]) s.contents ids t.contents) :
    Guar cluster resources i s t := by
  have hown := watched_putItems hnew htypeId hknows hdoc
  obtain ⟨id, -, -, -, -, -, ht⟩ := (putItems_singleton hnew).mp hdoc
  obtain ⟨-, v, hv, hid⟩ := hknows l rfl
  have hother : ∀ j, j ≠ i → watched cluster resources j t = watched cluster resources j s := by
    intro j hj
    rw [watched, ht]
    apply Contents.itemsOfType_addItem_of_ne
    intro w hw hwid
    -- Two stored types of different names have different ids.
    obtain ⟨hvmem, hvname⟩ := Store.findType_eq_some_iff.mp hv
    obtain ⟨hwmem, hwname⟩ := (Contents.findType_eq_some_iff s.wellFormed).mp hw
    have hids : v.id = w.id := by
      rw [hid]
      exact Option.some.inj (htypeId.symm.trans hwid)
    have hsame := Contents.eq_of_type_id s.wellFormed hvmem hwmem hids
    exact hj (hdistinct (hwname.symm.trans ((congrArg StoredType.name hsame.symm).trans hvname)))
  refine ⟨hdoc.typesGrow s.wellFormed, ?_, hother, fun hlogged => ?_⟩
  · rw [watched, watched, ht, Contents.itemsOfType_addItem_of_type hv (by rw [htypeId, hid])]
    exact List.prefix_append _ _
  · refine ⟨hlogged.consistent.documented s.wellFormed hdoc, fun j uid huid => ?_⟩
    by_cases hj : j = i
    · subst hj
      have hold := hlogged.once j uid huid
      rw [copies, hown, List.count_append]
      by_cases hsame : uid = versionOf artifact
      · subst hsame
        have hzero := habsent huid
        rw [copies] at hzero
        simp [hzero]
      · rw [copies] at hold
        simpa [List.count_singleton, Ne.symm hsame] using hold
    · rw [copies, hother j hj]
      exact hlogged.once j uid huid

/-! ## The jobs of a logger -/

/-- A program whose calls a logger may make, with what its result satisfies. -/
abbrev SafeFor (cluster : Cluster Object) (resources : ι → GroupVersionKind)
    (E : Effect api Store) (i : ι) {α : Type} (post : α → Store → Prop) (x : Handler α)
    (s : Store) : Prop :=
  SafeOk E (Logged cluster resources) (Rely cluster resources i) (Guar cluster resources i) post x s

theorem rely_trans (i : ι) (s t u : Store) (hfirst : Rely cluster resources i s t)
    (hsecond : Rely cluster resources i t u) : Rely cluster resources i s u :=
  hfirst.trans hsecond

/-- A logger that is created has the id of the type it has put. -/
theorem safe_newMetaLogger (hE : Sound E) (s : Store) :
    SafeFor cluster resources E i (fun l t => Knows cluster resources i (some l) t)
      (newMetaLogger cluster (resources i)) s := by
  refine SafeOk.bind (fun typeID t => Knows cluster resources i (some ⟨resources i, typeID⟩) t)
    Rely.refl (rely_trans i) (safe_wrapError Rely.refl (rely_trans i) (safe_storeCall ?_))
    fun typeID t _ hknows => SafeOk.pure hknows
  intro t _ hlogged reply u heffect
  refine ⟨guar_of_outcome hE heffect fun id hdoc => guar_putType hlogged hdoc, ?_⟩
  rintro typeID rfl v hrely -
  refine Knows.stable ?_ hrely.types
  rintro l hl
  obtain rfl := Option.some.inj hl
  have hfind := PutType.findType (hE.accepted (.putType .artifact _ _) t u typeID heffect)
  exact ⟨rfl, _, hfind, rfl⟩

/-- The lookup says whether the UID is logged, and nobody else changes that. -/
theorem safe_ifExists (hE : Sound E) {l : MetaLogger} (hresource : l.resource = resources i)
    (uid : String) (s : Store) :
    SafeFor cluster resources E i
      (fun exist t => exist = true ↔ copies cluster resources i uid t ≠ 0)
      (ifExists cluster l uid) s := by
  refine SafeOk.bind (fun artifacts t => (artifacts.any fun artifact => versionOf artifact = uid) =
      true ↔ copies cluster resources i uid t ≠ 0)
    Rely.refl (rely_trans i) (safe_wrapError Rely.refl (rely_trans i) (safe_storeCall ?_))
    fun artifacts t _ hmid => SafeOk.pure hmid
  intro t _ _ reply u heffect
  refine ⟨guar_read hE (.getItemsByType .artifact _) trivial heffect, ?_⟩
  rintro artifacts rfl v hrely -
  obtain ⟨hsame, hperm⟩ := hE.accepted (.getItemsByType .artifact _) t u artifacts heffect
  rw [hrely.copies_eq, copies, watched, hsame, ← hresource, ← Nat.pos_iff_ne_zero,
    List.count_pos_iff, ← (hperm.map versionOf).mem_iff, List.any_eq_true, List.mem_map]
  simp only [decide_eq_true_eq]

/-- Storing the artifact of an object that is not logged yet logs it once. -/
theorem safe_putLogged (hE : Sound E)
    (hdistinct : Function.Injective fun i => metadataArtifactType cluster (resources i))
    {l : MetaLogger} {object : ObjectMeta} {bytes : String} {s : Store}
    (hknows : Knows cluster resources i (some l) s)
    (habsent : copies cluster resources i object.uid s = 0) :
    SafeFor cluster resources E i (fun _ t => copies cluster resources i object.uid t = 1)
      (storeCall (.putItems .artifact [loggedArtifact l object bytes])) s := by
  apply safe_storeCall
  intro t hst _ reply u heffect
  have hknows' := hknows.stable hst.types
  have habsent' : copies cluster resources i object.uid t = 0 :=
    (hst.copies_eq object.uid).trans habsent
  refine ⟨guar_of_outcome hE heffect fun ids hdoc =>
    guar_putItems hdistinct rfl rfl hknows' (fun _ => ?_) hdoc, ?_⟩
  · rw [versionOf_loggedArtifact]
    exact habsent'
  · rintro ids rfl v huv -
    have hadded := watched_putItems rfl rfl hknows'
      (hE.accepted (.putItems .artifact _) t u ids heffect)
    rw [huv.copies_eq, copies, hadded, List.count_append, versionOf_loggedArtifact]
    rw [copies] at habsent'
    simp [habsent']

/-- An added object is logged once when the logger returns without error. -/
theorem safe_onAdd (hE : Sound E)
    (hdistinct : Function.Injective fun i => metadataArtifactType cluster (resources i))
    {l : MetaLogger} {obj : Object} {s : Store} (hknows : Knows cluster resources i (some l) s) :
    SafeFor cluster resources E i (fun _ t => ∀ object, decode cluster obj = .ok object →
      object.uid ≠ "" → copies cluster resources i object.uid t = 1) (onAdd cluster l obj) s := by
  refine SafeOk.bind
    (fun object t => decode cluster obj = .ok object ∧ Knows cluster resources i (some l) t)
    Rely.refl (rely_trans i)
    (safe_ofResult fun object t hobject hst _ => ⟨hobject, hknows.stable hst.types⟩)
    fun object t hlogged hmid => ?_
  obtain ⟨hobject, hknows'⟩ := hmid t (Rely.refl t) hlogged
  refine SafeOk.bind (fun exist u => (exist = true ↔ copies cluster resources i object.uid u ≠ 0) ∧
      Knows cluster resources i (some l) u) Rely.refl (rely_trans i)
    (SafeOk.frame (fun _ _ hfirst hrely => hfirst.stable hrely.types)
      (fun _ _ hfirst hguar => hfirst.stable hguar.types) hknows'
      (safe_ifExists hE (hknows' l rfl).1 object.uid t)) fun exist u hlogged' hmid' => ?_
  cases exist with
  | true =>
      apply SafeOk.pure
      intro v huv hinv object' hobject' huid
      obtain rfl := Except.ok.inj (hobject.symm.trans hobject')
      have hsome := (hmid' v huv hinv).1.mp rfl
      have honce := hinv.once i object.uid huid
      omega
  | false =>
      refine SafeOk.bind (fun _ v => copies cluster resources i object.uid v = 0 ∧
          Knows cluster resources i (some l) v) Rely.refl (rely_trans i)
        (safe_ofResult fun bytes v _ huv hinv => ?_) fun bytes v hlogged'' hmid'' => ?_
      · obtain ⟨hiff, hknows''⟩ := hmid' v huv hinv
        refine ⟨?_, hknows''⟩
        by_contra hsome
        cases hiff.mpr hsome
      · obtain ⟨habsent, hknows''⟩ := hmid'' v (Rely.refl v) hlogged''
        refine SafeOk.bind _ Rely.refl (rely_trans i)
          (safe_putLogged hE hdistinct hknows'' habsent) fun _ w _ hone => ?_
        apply SafeOk.pure
        intro x hwx hinv object' hobject' _
        obtain rfl := Except.ok.inj (hobject.symm.trans hobject')
        exact hone x hwx hinv

/-- Whatever the event, handling it keeps to the guarantee. -/
theorem safe_handleEvent (hE : Sound E)
    (hdistinct : Function.Injective fun i => metadataArtifactType cluster (resources i))
    {l : MetaLogger} {e : Event Object} {s : Store}
    (hknows : Knows cluster resources i (some l) s) :
    SafeFor cluster resources E i (fun _ t => e.kind = .addEvent → ∀ object,
      decode cluster e.newVal = .ok object → object.uid ≠ "" →
        copies cluster resources i object.uid t = 1) (handleEvent cluster l e) s := by
  rw [handleEvent]
  cases hkind : e.kind with
  | addEvent =>
      exact (safe_onAdd hE hdistinct hknows).mono fun _ _ _ hpost a ha _ => hpost a ha
  | updateEvent => exact SafeOk.pure fun _ _ _ hadd => by cases hadd
  | deleteEvent => exact SafeOk.pure fun _ _ _ hadd => by cases hadd
  | unknown => exact SafeOk.pure fun _ _ _ hadd => by cases hadd

/-! ## The proof outline -/

/-- Every job of a logger keeps to the guarantee and establishes what is claimed of it,
while the logger goes on knowing its type. -/
theorem safe_body (hE : Sound E)
    (hdistinct : Function.Injective fun i => metadataArtifactType cluster (resources i))
    {memory : Option MetaLogger} {job : Job Object}
    (hready : (loggers cluster resources).ready i memory job)
    (hknows : Knows cluster resources i memory s) :
    ((loggers cluster resources).body i memory job).Safe E (Logged cluster resources)
      (Rely cluster resources i) (Guar cluster resources i)
      (Post cluster resources i memory job) s := by
  suffices hjob : ((loggers cluster resources).body i memory job).Safe E
      (Logged cluster resources) (Rely cluster resources i) (Guar cluster resources i)
      (fun answer t => (∀ l, answer = .created (.ok l) → Knows cluster resources i (some l) t) ∧
        ∀ e object, job = .handle e → e.kind = .addEvent → answer = .handled (.ok ()) →
          decode cluster e.newVal = .ok object → object.uid ≠ "" →
            copies cluster resources i object.uid t = 1) s from
    (Safe.frame (fun _ _ hfirst hrely => hfirst.stable hrely.types)
      (fun _ _ hfirst hguar => hfirst.stable hguar.types) hknows hjob).mono
        fun _ _ _ hpost => ⟨hpost.2, hpost.1⟩
  match job, memory with
  | .create, memory =>
      refine Safe.map Rely.refl (rely_trans i) ((safe_newMetaLogger hE s).mono ?_)
      refine fun result t _ hpost => ⟨fun l hl => ?_, fun e _ hcreate => by cases hcreate⟩
      cases hl
      exact hpost l rfl
  | .handle e, some l =>
      refine Safe.map Rely.refl (rely_trans i) ((safe_handleEvent hE hdistinct hknows).mono ?_)
      refine fun result t _ hpost => ⟨fun _ hl => (by cases hl), fun e' object he hadd hok => ?_⟩
      cases he
      cases hok
      exact hpost () rfl hadd object
  | .handle e, none => cases hready

theorem outline_valid (hE : Sound E)
    (hdistinct : Function.Injective fun i => metadataArtifactType cluster (resources i)) :
    (outline cluster resources).Valid (loggers cluster resources) E
      (others cluster resources E) where
  rely_refl _ := Rely.refl
  rely_trans := rely_trans
  guar_inv _ _ _ hlogged hguar := hguar.logged hlogged
  guar_rely i j _ _ hij _ hguar := ⟨hguar.types, hguar.other j (Ne.symm hij)⟩
  env_inv _ _ hlogged := by
    rintro ⟨op, reply, heffect, hsame⟩
    exact hlogged.of_same (hE.consistent heffect hlogged.consistent) hsame
  env_rely i _ _ _ := by
    rintro ⟨op, reply, heffect, hsame⟩
    exact ⟨hE.typesGrow heffect, hsame i⟩
  knows_stable _ _ _ _ hrely hknows := hknows.stable hrely.types
  body_safe _ _ _ _ hready hknows _ := safe_body hE hdistinct hready hknows
  resume_knows i memory job answer s _ hpost := by
    match answer with
    | .created (.ok l) => exact hpost.2.1 l rfl
    | .created (.error _) => exact hpost.1
    | .handled _ => exact hpost.1

/-! ## Every run -/

/-- No logger has been created yet. -/
def start (store : Store) : Config api Store ι (Option MetaLogger) (Job Object) Answer :=
  ⟨store, fun _ => .idle none⟩

/-- **Every object is logged exactly once.** Start the loggers of resources with
different artifact types on a store that logs nothing twice, and let their calls
interleave in any way with each other and with calls of other clients that leave the
watched types alone; any call may fail before or after its effect. Then no UID is ever
logged twice for a resource, and when a logger has handled an added object without
error the object is logged once, from then on. -/
theorem logged_exactly_once [DecidableEq ι] (hE : Sound E)
    (hdistinct : Function.Injective fun i => metadataArtifactType cluster (resources i))
    {store : Store} (hstore : Logged cluster resources store)
    {c d : Config api Store ι (Option MetaLogger) (Job Object) Answer}
    (hreached : (loggers cluster resources).Steps E (others cluster resources E) (start store) c)
    (hlater : (loggers cluster resources).Steps E (others cluster resources E) c d) :
    (∀ i uid, uid ≠ "" → copies cluster resources i uid c.state ≤ 1) ∧
      ∀ i memory e object,
        c.phase i = .busy memory (.handle e) (.done (.handled (.ok ()))) → e.kind = .addEvent →
          decode cluster e.newVal = .ok object → object.uid ≠ "" →
            copies cluster resources i object.uid d.state = 1 := by
  have hvalid : (outline cluster resources).Valid (loggers cluster resources) E
      (others cluster resources E) := outline_valid hE hdistinct
  have hstart : (outline cluster resources).Holds E (start store) :=
    ⟨hstore, fun _ l hl => by cases hl⟩
  have hc := Clients.Steps.holds hvalid hreached hstart
  refine ⟨hc.1.once, fun i memory e object hphase hadd hobject huid => ?_⟩
  have hone := (hc.post hvalid hphase).2.2 e object rfl hadd rfl hobject huid
  have hd := Clients.Steps.holds hvalid hlater hc
  -- What is logged stays logged, so the one artifact of `c` is in `d`, and alone there.
  have hkept : watched cluster resources i c.state <+: watched cluster resources i d.state :=
    Clients.Steps.related (R := fun s t =>
        watched cluster resources i s <+: watched cluster resources i t) hvalid
      (fun _ => List.prefix_rfl) (fun _ _ _ hfirst hsecond => hfirst.trans hsecond)
      (fun _ _ _ _ hguar => hguar.watched_prefix i)
      (fun s t _ ⟨_, _, _, hsame⟩ => by rw [hsame i]) hlater hc
  have hatLeast : copies cluster resources i object.uid c.state ≤
      copies cluster resources i object.uid d.state :=
    (hkept.map versionOf).sublist.count_le object.uid
  have hatMost := hd.1.once i object.uid huid
  omega

/-- An empty store logs nothing twice. -/
theorem logged_empty : Logged cluster resources Store.empty where
  consistent := consistent_empty
  once _ _ _ := Nat.zero_le 1

/-- Objects that are just what their getters return. -/
def plain : Cluster ObjectMeta where
  groupKind gvk := gvk.kind ++ "." ++ gvk.group
  object := some
  tombstone _ := none
  marshal o := .ok o.name

/-- A logger for pods and one for services. -/
def podsAndServices (pods : Bool) : GroupVersionKind :=
  if pods then ⟨"core", "v1", "Pod"⟩ else ⟨"core", "v1", "Service"⟩

def podLogger : MetaLogger := ⟨podsAndServices true, 1⟩

def podAdded : Event ObjectMeta := ⟨.addEvent, none, ⟨"u1", "web", "/pods/web", "2019-01-01"⟩⟩

/-- The store after the logger is created, with the type of its artifacts. -/
def created : Store := ((newMetaLogger plain (podsAndServices true)).run.run inMemory Store.empty).2

/-- A store that loses the replies to insertions. -/
def losesPuts : Server api Store := losing fun op =>
  match op with
  | .putItems .. => true
  | _ => false

/-- The store after the pod is logged for the first time, by a call whose reply is lost. -/
def loggedPod : Store := ((handleEvent plain podLogger podAdded).run.run losesPuts created).2

/-- A pod is logged but the reply is lost; the event is queued again, and the pod found. -/
theorem logged_exactly_once_lostReply :
    ∃ c : Config api Store Bool (Option MetaLogger) (Job ObjectMeta) Answer,
      (loggers plain podsAndServices).Steps lossy (others plain podsAndServices lossy)
        (start Store.empty) c ∧ copies plain podsAndServices true "u1" c.state = 1 := by
  have hcreate := (runs_run_of_toOption inMemory (newMetaLogger plain (podsAndServices true))
    Store.empty (a := podLogger) rfl).mono fun _ _ _ _ => lossy_of_inMemory
  have hlost := (runs_of_run losesPuts (handleEvent plain podLogger podAdded).run created).mono
    fun _ _ _ _ heffect => (⟨_, heffect⟩ : lossy _ _ _ _)
  have hfound := (runs_run_of_toOption inMemory (handleEvent plain podLogger podAdded)
    loggedPod (a := ()) rfl).mono fun _ _ _ _ => lossy_of_inMemory
  let clients := loggers plain podsAndServices
  let env := others plain podsAndServices lossy
  have hcreated := Clients.Steps.of_runs clients env (c := start Store.empty) true none .create rfl
    trivial (hcreate.map Answer.created)
  have hknown := hcreated.tail (.finish true none .create _ rfl)
  have htried := hknown.trans (Clients.Steps.of_runs clients env true (some podLogger)
    (.handle podAdded) rfl rfl (hlost.map Answer.handled))
  have hqueued := htried.tail
    (.finish true (some podLogger) (.handle podAdded) _ rfl)
  have hdone := hqueued.trans (Clients.Steps.of_runs clients env true (some podLogger)
    (.handle podAdded) rfl rfl (hfound.map Answer.handled))
  exact ⟨_, hdone, (logged_exactly_once lossy_sound (by decide) logged_empty hdone .refl).2 true
    (some podLogger) podAdded _ rfl rfl rfl (by decide)⟩

end KfMetadata.Watcher
