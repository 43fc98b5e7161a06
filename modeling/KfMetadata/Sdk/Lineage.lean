/-
# Lineage of logged artifacts

A logged artifact should be linked to its execution by an event, and attributed to the
context of the execution's workspace. The event is always there when the call returns.
The attribution is written only when the artifact is stored by the call: a call that
finds the object's id set, or finds a duplicate in the store, returns without one. So
an artifact that is logged again in another workspace is not attributed to it, and
neither is one whose attribution failed when it was stored, since by then its object
had its id.

The attribution is there in every run in which an object is only logged again, or
found to be a duplicate, where its artifact is attributed already.
-/

import KfMetadata.Sdk.Session

namespace KfMetadata.Sdk

open Mlmd Remote

variable {Ref : Type} [DecidableEq Ref] {objects : Ref → ArtifactObject}

/-- A logged artifact has its id, is linked to the execution, and is attributed to the
execution's workspace. -/
structure Lineage (w : World Ref) (type : EventType) (execution : Execution) (artifact : Ref)
    (id : Int) : Prop where
  assigned : w.ids artifact = some id
  event : ∃ e ∈ w.store.contents.events,
    e.artifactId = some id ∧ e.executionId = execution.id ∧ e.type = type
  attribution : ⟨execution.workspace.contextId, id⟩ ∈ w.store.contents.attributions

/-- The artifact that the object stands for already, by its id or as a duplicate, is
attributed to the workspace. -/
def AttributedBefore (self : Execution) (artifact : ArtifactObject) (s : Store) :
    Option Int → Prop
  | some id => ⟨self.workspace.contextId, id⟩ ∈ s.contents.attributions
  | none => ∀ type ser, s.findType .artifact artifact.typeName = some type →
      serializationOf self artifact type.id = .ok ser →
      ∀ pb ∈ s.contents.items .artifact, pb.uri = some artifact.uri →
        artifact.isDuplicated ser pb →
          ⟨self.workspace.contextId, pb.id.getD 0⟩ ∈ s.contents.attributions

/-- What is logged is new, or attributed to the workspace already. -/
def NewOrAttributed (objects : Ref → ArtifactObject) (w : World Ref) (action : Action Ref) :
    Prop :=
  ∀ type self artifact, action.logs = some (type, self, artifact) →
    AttributedBefore self (objects artifact) w.store (w.ids artifact)

/-! ## One call -/

variable {self : Execution} {artifact : ArtifactObject} {s t : Recorded api Store}
  {l m : Option Int}

/-- Two exits write nothing, and the third one writes the attribution. -/
theorem LogExit.attributed (hexit : LogExit attempts.recorded self artifact s l t m)
    (hbefore : AttributedBefore self artifact s.state l) :
    ∃ id, m = some id ∧ ⟨self.workspace.contextId, id⟩ ∈ t.state.contents.attributions := by
  cases hexit with
  | @known u _ type id pbs htype hcheck hone =>
      have hu : u.state = s.state := (recorded_read (.getType ..) trivial htype).1
      have ht : t.state = u.state := (recorded_read (.getItemsByID ..) trivial hcheck).1
      rw [ht, hu]
      exact ⟨id, rfl, hbefore⟩
  | @duplicate u _ type ser pb pbs htype hser hlist hfound =>
      obtain ⟨hu, -, hname⟩ := recorded_read (.getType ..) trivial htype
      obtain ⟨ht, -, hperm⟩ := recorded_read (.getArtifactsByURI _) trivial hlist
      obtain ⟨stored, hstored, rfl⟩ := Option.map_eq_some_iff.mp hname
      -- The duplicate is stored under the object's address.
      have hmem := hperm.mem_iff.mp (List.mem_of_find?_eq_some hfound)
      rw [hu, List.mem_filter, decide_eq_true_eq] at hmem
      rw [ht, hu]
      exact ⟨_, rfl, hbefore stored ser hstored hser pb hmem.1 hmem.2
        (List.find?_some hfound)⟩
  | @stored u v x _ type ser pbs id rest htype hser hlist hnone hput hmember =>
      obtain ⟨-, y, -, -, -, -, hdoc⟩ :=
        recorded_ok (.putAttributionsAndAssociations ..) hmember
      refine ⟨id, rfl, ?_⟩
      rw [hdoc]
      simp [Contents.addMembers]

/-- The event of a call that returns is stored. -/
theorem recorded_event {e : Event}
    (hcall : attempts.recorded (.putEvents [some e]) s (.ok ()) t) :
    ∃ e' ∈ t.state.contents.events, e'.artifactId = e.artifactId ∧
      e'.executionId = e.executionId ∧ e'.type = e.type := by
  obtain ⟨-, u, -, -, now, stored, hstored, -, ht⟩ := recorded_ok (.putEvents _) hcall
  have hmem : some e ∈ stored.map some := by
    rw [← hstored]
    exact List.mem_singleton_self _
  obtain ⟨e', he', hsame⟩ := List.mem_map.mp hmem
  obtain rfl := Option.some.inj hsame
  rw [ht]
  exact ⟨e'.stamp now, List.mem_append_right _ (List.mem_map_of_mem he'), rfl, rfl, rfl⟩

/-- Both ends of the event are stored as well. -/
theorem recorded_linked {e : Event}
    (hcall : attempts.recorded (.putEvents [some e]) s (.ok ()) t) :
    Linked t.state.contents e := by
  obtain ⟨-, u, -, -, now, stored, hstored, hends, ht⟩ := recorded_ok (.putEvents _) hcall
  have hmem : some e ∈ stored.map some := by
    rw [← hstored]
    exact List.mem_singleton_self _
  obtain ⟨e', he', hsame⟩ := List.mem_map.mp hmem
  obtain rfl := Option.some.inj hsame
  rw [ht]
  exact (hends e' he').linked

/-- An attempt to put events attributes nothing. -/
theorem attempt_putEvents {events : List (Option Event)} {outcome : Outcome} {s t : Store}
    {reply : api.Reply (.putEvents events)}
    (hattempt : attempt outcome (.putEvents events) s reply t) :
    t.contents.attributions = s.contents.attributions := by
  cases outcome with
  | failed => rw [hattempt.2]
  | lost =>
      obtain ⟨-, -, now, stored, -, -, ht⟩ := hattempt
      rw [ht, Contents.addEvents]
  | replied =>
      obtain ⟨-, -, now, stored, -, -, ht⟩ := hattempt
      rw [ht, Contents.addEvents]

variable {w v start : World Ref} {action : Action Ref} {r : Except PyError Unit}
  {type : EventType} {ref : Ref}

/-- A call that returns, of an object that is new or attributed, leaves a lineage. -/
theorem Step.lineage (hstep : Step objects w action (.ok ()) v)
    (hlogs : action.logs = some (type, self, ref))
    (hbefore : AttributedBefore self (objects ref) w.store (w.ids ref)) :
    ∃ id, Lineage v type self ref id := by
  obtain ⟨m, hrun, hids⟩ := hstep.logAs hlogs
  obtain ⟨u, hexit, hevent⟩ := runs_logAs_ok hrun
  obtain ⟨id, rfl, hattributed⟩ := hexit.attributed hbefore
  exact ⟨id, by rw [hids, Function.update_self], recorded_event hevent,
    (recorded_links (.putEvents _) hevent).attributions hattributed⟩

/-- Of an object whose id is set, nothing short of an earlier attribution leaves one. -/
theorem Step.lineage_iff_of_known {id : Int} (hstep : Step objects w action (.ok ()) v)
    (hlogs : action.logs = some (type, self, ref)) (hid : w.ids ref = some id) :
    (∃ id', Lineage v type self ref id') ↔
      ⟨self.workspace.contextId, id⟩ ∈ w.store.contents.attributions := by
  apply Iff.intro
  · rintro ⟨id', hlineage⟩
    obtain rfl : id = id' := Option.some.inj ((hstep.ids hid).symm.trans hlineage.assigned)
    obtain ⟨m, hrun, -⟩ := hstep.logAs hlogs
    rw [hid] at hrun
    obtain ⟨u, hexit, outcomes, hretried, -⟩ := runs_logAs_ok hrun
    have hevent : v.store.contents.attributions = u.state.contents.attributions := by
      refine hretried.related (R := fun s t => t.contents.attributions = s.contents.attributions)
        (fun _ _ _ hfirst hsecond => ?_) fun _ _ _ _ => attempt_putEvents
      exact hsecond.trans hfirst
    cases hexit with
    | @known x _ _ _ _ htype hcheck hone =>
        have hx : x.state = w.store := (recorded_read (.getType ..) trivial htype).1
        have hu : u.state = x.state := (recorded_read (.getItemsByID ..) trivial hcheck).1
        rw [← hx, ← hu, ← hevent]
        exact hlineage.attribution
  · intro hbefore
    exact hstep.lineage hlogs (by rw [hid]; exact hbefore)

/-- No later call takes a lineage away. -/
theorem Lineage.kept {id : Int} (hlineage : Lineage w type self ref id)
    (hstep : Step objects w action r v) : Lineage v type self ref id where
  assigned := hstep.ids hlineage.assigned
  event := by
    obtain ⟨e, he, hends⟩ := hlineage.event
    exact ⟨e, hstep.links.events.subset he, hends⟩
  attribution := hstep.links.attributions hlineage.attribution

/-! ## Every run -/

/-- **Lineage is complete where objects are new or attributed.** After any calls, some of
which may have raised, whatever was logged by a call that returned has its id, its event
and its attribution, provided that each call logged an object that was new, or whose
artifact was attributed to the workspace already. -/
theorem lineage_complete {calls : List (Action Ref × Except PyError Unit)}
    (hcalls : Calls objects (NewOrAttributed objects) start calls w)
    (hreturned : (action, .ok ()) ∈ calls) (hlogs : action.logs = some (type, self, ref)) :
    ∃ id, Lineage w type self ref id := by
  induction hcalls with
  | nil => cases hreturned
  | snoc _ hcondition hstep ih =>
      rcases List.mem_append.mp hreturned with hearlier | hlast
      · obtain ⟨id, hlineage⟩ := ih hearlier
        exact ⟨id, hlineage.kept hstep⟩
      · obtain ⟨rfl, rfl⟩ := Prod.mk.inj (List.mem_singleton.mp hlast)
        exact hstep.lineage hlogs (hcondition type self ref hlogs)

/-- The session after logging a model as an output, with every call answered. -/
def attributed : Recorded api Store :=
  (((trainer.logOutput (some model)).run.run none).run answering constructed).2

/-- The session after logging the same object as an input, too. -/
def loggedTwice : Recorded api Store :=
  (((trainer.logInput (some model)).run.run (some 1)).run answering attributed).2

/-- A new object is logged, and logged again where it is attributed. -/
theorem lineage_complete_loggedTwice :
    ∃ (w : World Unit) (id : Int), w.session = loggedTwice ∧
      Lineage w .output trainer () id := by
  have houtput : Step (fun _ => model) ⟨constructed, fun _ => none, [trainer]⟩
      (.logOutput trainer ()) (.ok ())
      ⟨attributed, Function.update (fun _ => none) () (some 1), [trainer]⟩ :=
    .loggedOutput (List.mem_singleton_self _)
      ((Procedure.runs_of_run answering rfl).mono fun _ _ _ _ => scripted_recorded)
  have hagain : Step (fun _ => model)
      ⟨attributed, Function.update (fun _ => none) () (some 1), [trainer]⟩
      (.logInput trainer ()) (.ok ())
      ⟨loggedTwice, Function.update (Function.update (fun _ => none) () (some 1)) () (some 1),
        [trainer]⟩ :=
    .loggedInput (List.mem_singleton_self _)
      ((Procedure.runs_of_run answering rfl).mono fun _ _ _ _ => scripted_recorded)
  have hconstructed : Calls (fun _ => model) (NewOrAttributed fun _ => model)
      ⟨prepared, fun _ => none, []⟩ _ _ :=
    Calls.nil.snoc (fun _ _ _ hlogs => by cases hlogs) step_constructTrainer
  have hlogged := hconstructed.snoc (fun _ _ _ hlogs => by
    cases hlogs
    exact fun _ _ _ _ _ _ _ hduplicate => by cases hduplicate) houtput
  have htwice := hlogged.snoc (fun _ _ _ hlogs => by
    cases hlogs
    have hstored : (⟨1, 1⟩ : Attribution) ∈ attributed.state.contents.attributions := by
      decide +kernel
    exact hstored) hagain
  obtain ⟨id, hlineage⟩ := lineage_complete htwice (by simp)
    (rfl : (Action.logOutput trainer ()).logs = some (.output, trainer, ()))
  exact ⟨_, id, rfl, hlineage⟩

/-! ## A missing attribution -/

/-- The store in memory, with no attribution answered. -/
def withoutAttributions : Server api (Recorded api Store) := scripted fun op =>
  match op with
  | .putAttributionsAndAssociations .. => [.failed]
  | _ => [.replied]

/-- The session after logging a model whose attribution fails. -/
def unattributed : Recorded api Store :=
  (((trainer.logOutput (some model)).run.run none).run withoutAttributions constructed).2

/-- The session after logging the same object again, with every call answered. -/
def loggedAgain : Recorded api Store :=
  (((trainer.logOutput (some model)).run.run (some 1)).run answering unattributed).2

/-- Logging raises when the attribution fails; when it is tried again it returns, and the
artifact is not attributed. -/
theorem lineage_missing :
    ¬ ∀ (objects : Unit → ArtifactObject) (start w : World Unit)
      (calls : List (Action Unit × Except PyError Unit)) (action : Action Unit)
      (type : EventType) (self : Execution) (ref : Unit),
      Calls objects (fun _ _ => True) start calls w → (action, .ok ()) ∈ calls →
      action.logs = some (type, self, ref) → ∃ id, Lineage w type self ref id := by
  intro hclaim
  have hfails : Step (fun _ => model) ⟨constructed, fun _ => none, [trainer]⟩
      (.logOutput trainer ()) (.error (.rpc "failed"))
      ⟨unattributed, Function.update (fun _ => none) () (some 1), [trainer]⟩ :=
    .loggedOutput (List.mem_singleton_self _)
      ((Procedure.runs_of_run withoutAttributions rfl).mono fun _ _ _ _ => scripted_recorded)
  have hreturns : Step (fun _ => model)
      ⟨unattributed, Function.update (fun _ => none) () (some 1), [trainer]⟩
      (.logOutput trainer ()) (.ok ())
      ⟨loggedAgain, Function.update (Function.update (fun _ => none) () (some 1)) () (some 1),
        [trainer]⟩ :=
    .loggedOutput (List.mem_singleton_self _)
      ((Procedure.runs_of_run answering rfl).mono fun _ _ _ _ => scripted_recorded)
  obtain ⟨id, hlineage⟩ := hclaim _ _ _ _ (.logOutput trainer ()) .output trainer ()
    (((Calls.nil.snoc trivial step_constructTrainer).snoc trivial hfails).snoc trivial hreturns)
    (List.mem_append_right _ (List.mem_singleton_self _)) rfl
  have hnone : loggedAgain.state.contents.attributions = ∅ := rfl
  have hattributed := hlineage.attribution
  change _ ∈ loggedAgain.state.contents.attributions at hattributed
  rw [hnone] at hattributed
  cases hattributed

end KfMetadata.Sdk
