/-
# The watcher process

The process creates a logger for each resource of its list and lets a watcher run
with it: an informer's notifications go to the watcher's queue, and the watcher's
worker calls the logger, which calls the store. The parts have been looked at one
by one; here they run together, one shared store below, and every handler call is
made call by call while the queue and the other resources go on.

The process may also end at any moment, in the middle of a handler call or when it
gives up because a logger cannot be created, and be started again. Queues and
loggers are lost then, and only the store is kept.

Loggers are created in any order here. The list gives one order, in which all of
them have been created when nothing fails.
-/

import KfMetadata.Library.PathTemplate
import KfMetadata.Library.Replacement
import KfMetadata.Watcher.Delivery
import KfMetadata.Watcher.ExactlyOnce

namespace KfMetadata.Watcher

open Mlmd Remote Remote.Program

variable {Object Other ι : Type} [DecidableEq Object] [DecidableEq Other] [DecidableEq ι]
  (cluster : Cluster Object) (resources : ι → GroupVersionKind)

/-! ## The process -/

/-- Where the process is with one resource of its list. -/
inductive Stage (Object Other : Type) [DecidableEq Object] [DecidableEq Other]
  | absent
  /-- `NewMetaLogger` is running. -/
  | creating (rest : Program api (Except GoError MetaLogger))
  /-- The watcher runs; while its worker is in a handler call, `rest` is left of it. -/
  | watching (l : MetaLogger) (s : State Object Other) (rest : Program api (Except GoError Unit))

/-- The store and the process. -/
structure Process (Object Other ι : Type) [DecidableEq Object] [DecidableEq Other] where
  store : Store
  stage : ι → Stage Object Other

/-- A process that has just been started. -/
def Process.started (store : Store) : Process Object Other ι := ⟨store, fun _ => .absent⟩

def Process.set (p : Process Object Other ι) (i : ι) (stage : Stage Object Other) :
    Process Object Other ι :=
  { p with stage := Function.update p.stage i stage }

/-- A call has been answered, and one resource goes on. -/
def Process.reply (p : Process Object Other ι) (i : ι) (t : Store) (stage : Stage Object Other) :
    Process Object Other ι :=
  { p.set i stage with store := t }

theorem Process.reply_stage (p : Process Object Other ι) (i : ι) (t : Store)
    (stage : Stage Object Other) : (p.reply i t stage).stage i = stage := Function.update_self ..

/-- The worker is in a handler call. -/
def Worker.IsCalling : Worker Object Other → Prop
  | .calling _ _ => True
  | _ => False

/-- The program of the handler call that a worker is in. -/
def handlerProgram (l : MetaLogger) : Worker Object Other → Program api (Except GoError Unit)
  | .calling e _ => (handleEvent cluster l e).run
  | _ => pure (.ok ())

/-- An action that is none of the worker's. -/
def Action.IsOutside : Action Object Other → Prop
  | .work _ => False
  | _ => True

/-- One step of the process, of the store's other clients, or the end of the process. -/
inductive Process.Step (E : Effect api Store) :
    Process Object Other ι → Process Object Other ι → Prop
  | create {p : Process Object Other ι} (i : ι) (habsent : p.stage i = .absent) :
      Step E p (p.set i (.creating (newMetaLogger cluster (resources i)).run))
  | createCall {p : Process Object Other ι} (i : ι) (op : Call)
      (next : api.Reply op → Program api (Except GoError MetaLogger)) (reply : api.Reply op)
      (t : Store) (hstage : p.stage i = .creating (.call op next))
      (heffect : E op p.store reply t) :
      Step E p (p.reply i t (.creating (next reply)))
  | created {p : Process Object Other ι} (i : ι) (l : MetaLogger)
      (hstage : p.stage i = .creating (.done (.ok l))) :
      Step E p (p.set i (.watching l State.new (pure (.ok ()))))
  /-- A notification, the end of a delay, or the start or end of `Run`. -/
  | notify {p : Process Object Other ι} (i : ι) (l : MetaLogger) (s t : State Object Other)
      (rest : Program api (Except GoError Unit)) (action : Action Object Other)
      (hstage : p.stage i = .watching l s rest) (houtside : action.IsOutside)
      (hstep : s.step action = some t) :
      Step E p (p.set i (.watching l t rest))
  /-- The worker goes on with a statement other than the handler call. -/
  | work {p : Process Object Other ι} (i : ι) (l : MetaLogger) (s t : State Object Other)
      (rest : Program api (Except GoError Unit))
      (hstage : p.stage i = .watching l s rest) (hcalling : ¬ s.worker.IsCalling)
      (hstep : s.step (.work (.ok ())) = some t) :
      Step E p (p.set i (.watching l t (handlerProgram cluster l t.worker)))
  /-- The handler makes its next call. -/
  | handlerCall {p : Process Object Other ι} (i : ι) (l : MetaLogger) (s : State Object Other)
      (op : Call) (next : api.Reply op → Program api (Except GoError Unit))
      (reply : api.Reply op) (t : Store) (hstage : p.stage i = .watching l s (.call op next))
      (hcalling : s.worker.IsCalling) (heffect : E op p.store reply t) :
      Step E p (p.reply i t (.watching l s (next reply)))
  /-- The handler returns. -/
  | handlerReturn {p : Process Object Other ι} (i : ι) (l : MetaLogger)
      (s t : State Object Other) (result : Except GoError Unit)
      (hstage : p.stage i = .watching l s (.done result)) (hcalling : s.worker.IsCalling)
      (hstep : s.step (.work result) = some t) :
      Step E p (p.set i (.watching l t (pure (.ok ()))))
  /-- The process ends, and another is started. A call that was on its way has had its effect
  by then, or has none. -/
  | restart {p : Process Object Other ι} : Step E p (Process.started p.store)
  | outside {p : Process Object Other ι} (t : Store)
      (henv : others cluster resources E p.store t) :
      Step E p { p with store := t }

/-- Any number of steps. -/
abbrev Process.Steps (E : Effect api Store) :
    Process Object Other ι → Process Object Other ι → Prop :=
  Relation.ReflTransGen (Process.Step cluster resources E)

/-! ## What is known at any time -/

/-- What has been added and handled without error is stored. -/
def Stored (i : ι) (history : List (Note Object)) (store : Store) : Prop :=
  ∀ e object, .returned e (.ok ()) ∈ history → e.kind = .addEvent →
    decode cluster e.newVal = .ok object → object.uid ≠ "" →
      copies cluster resources i object.uid store = 1

/-- What a handler call establishes when it returns nil. -/
def Handles (i : ι) (e : Event Object) (result : Except GoError Unit) (store : Store) : Prop :=
  result = .ok () → e.kind = .addEvent → ∀ object, decode cluster e.newVal = .ok object →
    object.uid ≠ "" → copies cluster resources i object.uid store = 1

/-- What is known of one resource. -/
def StageHolds (E : Effect api Store) (i : ι) (store : Store) : Stage Object Other → Prop
  | .absent => True
  | .creating rest =>
      rest.Safe E (Logged cluster resources) (Rely cluster resources i)
        (Guar cluster resources i)
        (fun result t => ∀ l, result = .ok l → Knows cluster resources i (some l) t) store
  | .watching l s rest =>
      Knows cluster resources i (some l) store ∧ Tracked s ∧
        Stored cluster resources i s.history store ∧
        ∀ e call, s.worker = .calling e call →
          rest.Safe E (Logged cluster resources) (Rely cluster resources i)
            (Guar cluster resources i) (Handles cluster resources i e) store

/-- The store logs nothing twice, and each resource is as it should be. -/
structure ProcessHolds (E : Effect api Store) (p : Process Object Other ι) : Prop where
  logged : Logged cluster resources p.store
  stage : ∀ i, StageHolds cluster resources E i p.store (p.stage i)

variable {cluster resources} {E : Effect api Store} {i : ι} {s t : Store}

omit [DecidableEq Object] [DecidableEq ι] in
theorem Stored.stable {history : List (Note Object)}
    (hstored : Stored cluster resources i history s) (hrely : Rely cluster resources i s t) :
    Stored cluster resources i history t := by
  intro e object hreturned hadd hobject huid
  rw [hrely.copies_eq]
  exact hstored e object hreturned hadd hobject huid

omit [DecidableEq Object] [DecidableEq ι] in
/-- A logger's own calls remove nothing that is stored, and store nothing twice. -/
theorem Guar.copies_eq_one (hguar : Guar cluster resources i s t)
    (hlogged : Logged cluster resources s) {uid : String} (huid : uid ≠ "")
    (hone : copies cluster resources i uid s = 1) : copies cluster resources i uid t = 1 := by
  have hatLeast : copies cluster resources i uid s ≤ copies cluster resources i uid t :=
    (hguar.own.map versionOf).sublist.count_le uid
  have hatMost := (hguar.logged hlogged).once i uid huid
  omega

omit [DecidableEq Object] [DecidableEq ι] in
theorem Stored.guar {history : List (Note Object)}
    (hstored : Stored cluster resources i history s) (hguar : Guar cluster resources i s t)
    (hlogged : Logged cluster resources s) : Stored cluster resources i history t := by
  intro e object hreturned hadd hobject huid
  exact hguar.copies_eq_one hlogged huid (hstored e object hreturned hadd hobject huid)

omit [DecidableEq ι] in
/-- What the others do changes nothing for a resource. -/
theorem StageHolds.stable {stage : Stage Object Other}
    (hholds : StageHolds cluster resources E i s stage) (hrely : Rely cluster resources i s t) :
    StageHolds cluster resources E i t stage := by
  cases stage with
  | absent => trivial
  | creating rest => exact Safe.stable (rely_trans i) hholds hrely
  | watching l w rest =>
      obtain ⟨hknows, htracked, hstored, hsafe⟩ := hholds
      refine ⟨hknows.stable hrely.types, htracked, hstored.stable hrely, ?_⟩
      intro e call hworker
      exact Safe.stable (rely_trans i) (hsafe e call hworker) hrely

/-- A new stage of one resource that leaves the store alone. -/
theorem ProcessHolds.set {p : Process Object Other ι} (hholds : ProcessHolds cluster resources E p)
    {stage : Stage Object Other} (hstage : StageHolds cluster resources E i p.store stage) :
    ProcessHolds cluster resources E (p.set i stage) where
  logged := hholds.logged
  stage j := by
    by_cases hj : j = i
    · subst hj
      simpa [Process.set] using hstage
    · simpa [Process.set, Function.update_of_ne hj] using hholds.stage j

/-- A call of one resource, which is interference to the others. -/
theorem ProcessHolds.call {p : Process Object Other ι}
    (hholds : ProcessHolds cluster resources E p) (hguar : Guar cluster resources i p.store t)
    {stage : Stage Object Other} (hstage : StageHolds cluster resources E i t stage) :
    ProcessHolds cluster resources E (p.reply i t stage) where
  logged := hguar.logged hholds.logged
  stage j := by
    by_cases hj : j = i
    · subst hj
      simpa [Process.reply, Process.set] using hstage
    · have hrely : Rely cluster resources j p.store t := ⟨hguar.types, hguar.other j hj⟩
      simpa [Process.reply, Process.set, Function.update_of_ne hj] using
        (hholds.stage j).stable hrely

/-! ## Steps -/

/-- Notifications and the queue's own actions leave the worker where it is, or start it. -/
theorem worker_of_outside {w v : State Object Other} {action : Action Object Other}
    (houtside : action.IsOutside) (hstep : w.step action = some v) :
    v.worker = w.worker ∨ v.worker = .idle := by
  cases action with
  | onAdd obj => exact Or.inl (by rw [← Option.some.inj hstep]; rfl)
  | onUpdate oldObj newObj => exact Or.inl (by rw [← Option.some.inj hstep]; rfl)
  | onDelete obj => exact Or.inl (by rw [← Option.some.inj hstep]; rfl)
  | elapse item =>
      obtain ⟨-, hsome⟩ := Option.ite_none_right_eq_some.mp hstep
      exact Or.inl (by rw [← Option.some.inj hsome])
  | merge item =>
      obtain ⟨-, hsome⟩ := Option.ite_none_right_eq_some.mp hstep
      exact Or.inl (by rw [← Option.some.inj hsome])
  | run =>
      simp only [State.step] at hstep
      split at hstep
      next => exact Or.inr (by rw [← Option.some.inj hstep])
      next => cases hstep
  | work result => exact houtside.elim
  | shutDown => exact Or.inl (by rw [← Option.some.inj hstep])

/-- Nothing but the return of a handler call counts as handled. -/
theorem returned_of_step {w v : State Object Other} {action : Action Object Other}
    (hquiet : action.IsOutside ∨ ¬ w.worker.IsCalling) (hstep : w.step action = some v)
    {e : Event Object} {result : Except GoError Unit} (hmem : .returned e result ∈ v.history) :
    .returned e result ∈ w.history := by
  cases action with
  | onAdd obj =>
      obtain rfl := Option.some.inj hstep
      simpa [State.onAdd, State.enqueue] using hmem
  | onUpdate oldObj newObj =>
      obtain rfl := Option.some.inj hstep
      simpa [State.onUpdate, State.enqueue] using hmem
  | onDelete obj =>
      obtain rfl := Option.some.inj hstep
      simpa [State.onDelete, State.enqueue] using hmem
  | elapse item =>
      obtain rfl := Option.some.inj (Option.ite_none_right_eq_some.mp hstep).2
      exact hmem
  | merge item =>
      obtain rfl := Option.some.inj (Option.ite_none_right_eq_some.mp hstep).2
      exact hmem
  | run =>
      simp only [State.step] at hstep
      split at hstep
      next =>
        obtain rfl := Option.some.inj hstep
        exact hmem
      next => cases hstep
  | work result =>
      have hnot : ¬ w.worker.IsCalling := hquiet.resolve_left fun h => h.elim
      simp only [State.step, State.processNextWorkItem] at hstep
      split at hstep
      next => cases hstep
      next =>
        split at hstep
        next =>
          obtain rfl := Option.some.inj hstep
          exact hmem
        next =>
          obtain ⟨-, hsame⟩ := Option.ite_none_right_eq_some.mp hstep
          obtain rfl := Option.some.inj hsame
          exact hmem
      next =>
        obtain rfl := Option.some.inj hstep
        exact hmem
      next =>
        split at hstep
        next =>
          obtain rfl := Option.some.inj hstep
          simpa using hmem
        next =>
          obtain rfl := Option.some.inj hstep
          exact hmem
      next e' call hworker =>
        rw [hworker] at hnot
        exact (hnot trivial).elim
      next =>
        obtain rfl := Option.some.inj hstep
        simpa [State.enqueue] using hmem
      next =>
        obtain rfl := Option.some.inj hstep
        exact hmem
  | shutDown =>
      obtain rfl := Option.some.inj hstep
      exact hmem

/-- The return of a handler call is the last thing that has happened then. -/
theorem step_of_calling {w v : State Object Other} {e : Event Object} {call : HandlerCall Object}
    {result : Except GoError Unit} (hworker : w.worker = .calling e call)
    (hstep : w.step (.work result) = some v) :
    v.history = w.history ++ [.returned e result] ∧ ¬ v.worker.IsCalling := by
  simp only [State.step, State.processNextWorkItem, hworker] at hstep
  obtain rfl := Option.some.inj hstep
  cases result with
  | ok value => exact ⟨rfl, id⟩
  | error err => exact ⟨rfl, id⟩

omit [DecidableEq Object] [DecidableEq ι] in
theorem Stored.of_returned {first second : List (Note Object)}
    (hstored : Stored cluster resources i first s)
    (hreturned : ∀ e, .returned e (.ok ()) ∈ second → .returned e (.ok ()) ∈ first) :
    Stored cluster resources i second s :=
  fun e object hmem => hstored e object (hreturned e hmem)

/-- Every step of the process keeps what is known of it. -/
theorem Process.Step.holds (hE : Sound E)
    (hdistinct : Function.Injective fun i => metadataArtifactType cluster (resources i))
    {p q : Process Object Other ι} (hstep : Process.Step cluster resources E p q)
    (hholds : ProcessHolds cluster resources E p) : ProcessHolds cluster resources E q := by
  cases hstep with
  | create i habsent => exact hholds.set (safe_newMetaLogger hE p.store)
  | createCall i op next reply t hstage heffect =>
      have hsafe := hholds.stage i
      rw [hstage] at hsafe
      obtain ⟨hguar, hrest⟩ := hsafe p.store (Rely.refl p.store) hholds.logged reply t heffect
      exact hholds.call hguar hrest
  | created i l hstage =>
      have hsafe := hholds.stage i
      rw [hstage] at hsafe
      have hknows := hsafe p.store (Rely.refl p.store) hholds.logged l rfl
      apply hholds.set
      refine ⟨hknows, tracked_new, fun e object hmem => ?_, fun e call hworker => ?_⟩
      · cases hmem
      · cases hworker
  | notify i l s t rest action hstage houtside hstep =>
      have hwatching := hholds.stage i
      rw [hstage] at hwatching
      obtain ⟨hknows, htracked, hstored, hsafe⟩ := hwatching
      apply hholds.set
      refine ⟨hknows, htracked.step hstep,
        hstored.of_returned fun e => returned_of_step (Or.inl houtside) hstep, ?_⟩
      intro e call hworker
      cases worker_of_outside houtside hstep with
      | inl hsame => exact hsafe e call (hsame.symm.trans hworker)
      | inr hidle => exact absurd (hidle.symm.trans hworker) (by simp)
  | work i l s t rest hstage hcalling hstep =>
      have hwatching := hholds.stage i
      rw [hstage] at hwatching
      obtain ⟨hknows, htracked, hstored, -⟩ := hwatching
      apply hholds.set
      refine ⟨hknows, htracked.step hstep,
        hstored.of_returned fun e => returned_of_step (Or.inr hcalling) hstep, ?_⟩
      intro e call hworker
      rw [hworker]
      refine (safe_handleEvent hE hdistinct hknows).mono fun result u _ hpost => ?_
      intro hok hadd
      exact hpost () hok hadd
  | handlerCall i l s op next reply t hstage hcalling heffect =>
      have hwatching := hholds.stage i
      rw [hstage] at hwatching
      obtain ⟨hknows, htracked, hstored, hsafe⟩ := hwatching
      have hnext : ∀ e call, s.worker = .calling e call → _ := fun e call hworker =>
        hsafe e call hworker p.store (Rely.refl p.store) hholds.logged reply t heffect
      have hguar : Guar cluster resources i p.store t := by
        cases hworker : s.worker with
        | calling e call => exact (hnext e call hworker).1
        | _ => exact (hworker ▸ hcalling).elim
      apply hholds.call hguar
      exact ⟨hknows.stable hguar.types, htracked, hstored.guar hguar hholds.logged,
        fun e call hworker => (hnext e call hworker).2⟩
  | handlerReturn i l s t result hstage hcalling hstep =>
      have hwatching := hholds.stage i
      rw [hstage] at hwatching
      obtain ⟨hknows, htracked, hstored, hsafe⟩ := hwatching
      cases hworker : s.worker with
      | calling e call =>
          have hhandles := hsafe e call hworker p.store (Rely.refl p.store) hholds.logged
          obtain ⟨hhistory, hreturned⟩ := step_of_calling hworker hstep
          apply hholds.set
          refine ⟨hknows, htracked.step hstep, ?_, fun e' call' hworker' => ?_⟩
          · intro e' object hmem hadd hobject huid
            rw [hhistory, List.mem_append, List.mem_singleton] at hmem
            cases hmem with
            | inl hbefore => exact hstored e' object hbefore hadd hobject huid
            | inr hlast =>
                cases hlast
                exact hhandles rfl hadd object hobject huid
          · rw [hworker'] at hreturned
            exact (hreturned trivial).elim
      | _ => exact (hworker ▸ hcalling).elim
  | restart => exact ⟨hholds.logged, fun _ => trivial⟩
  | outside t henv =>
      obtain ⟨op, reply, heffect, hsame⟩ := henv
      exact ⟨hholds.logged.of_same (hE.consistent heffect hholds.logged.consistent) hsame,
        fun j => (hholds.stage j).stable ⟨hE.typesGrow heffect, hsame j⟩⟩

theorem Process.Steps.holds (hE : Sound E)
    (hdistinct : Function.Injective fun i => metadataArtifactType cluster (resources i))
    {p q : Process Object Other ι} (hsteps : Process.Steps cluster resources E p q)
    (hholds : ProcessHolds cluster resources E p) : ProcessHolds cluster resources E q := by
  induction hsteps with
  | refl => exact hholds
  | tail _ hstep ih => exact hstep.holds hE hdistinct ih

/-- The artifacts of a watched type are only added to. -/
theorem Process.Step.watched_prefix {p q : Process Object Other ι}
    (hstep : Process.Step cluster resources E p q)
    (hholds : ProcessHolds cluster resources E p) (j : ι) :
    watched cluster resources j p.store <+: watched cluster resources j q.store := by
  cases hstep with
  | createCall i op next reply t hstage heffect =>
      have hsafe := hholds.stage i
      rw [hstage] at hsafe
      have hguar := (hsafe p.store (Rely.refl p.store) hholds.logged reply t heffect).1
      exact hguar.watched_prefix j
  | handlerCall i l s op next reply t hstage hcalling heffect =>
      have hwatching := hholds.stage i
      rw [hstage] at hwatching
      cases hworker : s.worker with
      | calling e call =>
          have hguar := (hwatching.2.2.2 e call hworker p.store (Rely.refl p.store)
            hholds.logged reply t heffect).1
          exact hguar.watched_prefix j
      | _ => exact (hworker ▸ hcalling).elim
  | outside t henv =>
      obtain ⟨op, reply, heffect, hsame⟩ := henv
      show watched cluster resources j p.store <+: watched cluster resources j t
      rw [hsame j]
  | _ => exact List.prefix_rfl

theorem Process.Steps.watched_prefix (hE : Sound E)
    (hdistinct : Function.Injective fun i => metadataArtifactType cluster (resources i))
    {p q : Process Object Other ι} (hsteps : Process.Steps cluster resources E p q)
    (hholds : ProcessHolds cluster resources E p) (j : ι) :
    watched cluster resources j p.store <+: watched cluster resources j q.store := by
  induction hsteps with
  | refl => exact List.prefix_rfl
  | tail hsteps hstep ih =>
      have hmid := Process.Steps.holds hE hdistinct hsteps hholds
      exact ih.trans (hstep.watched_prefix hmid j)

/-! ## Histories -/

omit [DecidableEq Other] in
/-- An event that was enqueued was enqueued last at some time. -/
theorem exists_since {e : Event Object} {history : List (Note Object)}
    (henqueued : .enqueued e ∈ history) : ∃ notes, since e history = some notes := by
  induction history using List.reverseRecOn with
  | nil => cases henqueued
  | append_singleton before note ih =>
      cases note with
      | enqueued e' =>
          by_cases heq : e' = e
          · exact ⟨[], heq ▸ since_enqueued e before⟩
          · have hmem : .enqueued e ∈ before := by simpa [Ne.symm heq] using henqueued
            obtain ⟨notes, hnotes⟩ := ih hmem
            exact ⟨_, by rw [since_enqueued_of_ne e e' before heq, hnotes]; rfl⟩
      | called e' =>
          obtain ⟨notes, hnotes⟩ := ih (by simpa using henqueued)
          exact ⟨_, by rw [since_called, hnotes]; rfl⟩
      | returned e' result =>
          obtain ⟨notes, hnotes⟩ := ih (by simpa using henqueued)
          exact ⟨_, by rw [since_returned, hnotes]; rfl⟩

omit [DecidableEq Other] in
/-- What has happened since then has happened. -/
theorem mem_of_since {e : Event Object} {history notes : List (Note Object)}
    (hsince : since e history = some notes) {note : Note Object} (hmem : note ∈ notes) :
    note ∈ history := by
  induction history using List.reverseRecOn generalizing notes with
  | nil => cases hsince
  | append_singleton before last ih =>
      have hcases : notes = [] ∨ ∃ earlier, since e before = some earlier ∧
          notes = earlier ++ [last] := by
        cases last with
        | enqueued e' =>
            by_cases heq : e' = e
            · rw [heq, since_enqueued] at hsince
              exact Or.inl (Option.some.inj hsince).symm
            · rw [since_enqueued_of_ne e e' before heq, Option.map_eq_some_iff] at hsince
              obtain ⟨earlier, hearlier, rfl⟩ := hsince
              exact Or.inr ⟨earlier, hearlier, rfl⟩
        | called e' =>
            rw [since_called, Option.map_eq_some_iff] at hsince
            obtain ⟨earlier, hearlier, rfl⟩ := hsince
            exact Or.inr ⟨earlier, hearlier, rfl⟩
        | returned e' result =>
            rw [since_returned, Option.map_eq_some_iff] at hsince
            obtain ⟨earlier, hearlier, rfl⟩ := hsince
            exact Or.inr ⟨earlier, hearlier, rfl⟩
      cases hcases with
      | inl hnil => cases hnil ▸ hmem
      | inr hlater =>
          obtain ⟨earlier, hearlier, rfl⟩ := hlater
          cases List.mem_append.mp hmem with
          | inl hbefore => exact List.mem_append_left _ (ih hearlier hbefore)
          | inr hlast => exact List.mem_append_right _ hlast

/-- An enqueued event that is not pending has been handled without error. -/
theorem Tracked.returned {s : State Object Other} (htracked : Tracked s) {e : Event Object}
    (hopen : s.queue.shuttingDown = false) (henqueued : .enqueued e ∈ s.history)
    (hquiet : ¬ s.queue.Pending (.event e)) : .returned e (.ok ()) ∈ s.history := by
  obtain ⟨notes, hsince⟩ := exists_since henqueued
  have hserved : Served e notes := by
    by_contra hunserved
    exact hquiet (htracked.pending hopen ⟨notes, hsince, hunserved⟩)
  have hsubset := hserved.subset
  exact mem_of_since hsince (hsubset (by simp))

/-! ## The names of the artifact types -/

/-- The parts of a resource as the cluster accepts them: a kind is a word without dots,
and a version is one without slashes. -/
structure GroupVersionKind.Valid (gvk : GroupVersionKind) : Prop where
  kind : '.' ∉ gvk.kind.toList
  version : '/' ∉ gvk.version.toList

/-- The calls of one resource may be made before anything else happens. -/
theorem Process.Steps.of_runs {α : Type} (shown : Program api α → Stage Object Other)
    (hcall : ∀ (p : Process Object Other ι) op next reply t,
      p.stage i = shown (.call op next) → E op p.store reply t →
        Process.Step cluster resources E p (p.reply i t (shown (next reply))))
    {p : Process Object Other ι} {rest : Program api α} {a : α} (hstage : p.stage i = shown rest)
    (hruns : rest.Runs E p.store a t) :
    Process.Steps cluster resources E p (p.reply i t (shown (.done a))) := by
  induction rest generalizing p with
  | done value =>
      obtain ⟨rfl, rfl⟩ := runs_pure.mp hruns
      rw [Process.reply, Process.set, ← hstage, Function.update_eq_self]
  | call op next ih =>
      obtain ⟨reply, u, heffect, hrest⟩ := runs_call.mp hruns
      have hlater := ih reply (Process.reply_stage p i u (shown (next reply))) hrest
      have hsame (stage : Stage Object Other) :
          (p.reply i u (shown (next reply))).reply i t stage = p.reply i t stage := by
        simp [Process.reply, Process.set]
      rw [hsame] at hlater
      exact .head (hcall p op next reply u hstage heffect) hlater

def pods (_ : Unit) : GroupVersionKind := ⟨"", "v1", "Pod"⟩

end KfMetadata.Watcher
