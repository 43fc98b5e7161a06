/-
# Any number of requests at the same time

The handlers of any number of requests work on one store, each a sequence of
store calls, and the calls of different handlers interleave in any order. Every
call either reads or inserts, and what the store checks at an insertion it never
stops checking afterwards, since types only gain properties and records only
accumulate. So the invariant is one of single calls, and the interleaving does
not matter, not even when a type is updated between its lookup and the put of a
record of that type.
-/

import KfMetadata.Library.ConcurrentClients
import KfMetadata.Mlmd.Consistent
import KfMetadata.Mlmd.InMemory
import KfMetadata.Service.Specs

namespace KfMetadata.Service

open Mlmd Remote Remote.Program

/-! ## All interleavings -/

/-- A request together with its answer. -/
abbrev Answer : Type := (request : Request) × Except GoError request.Response

/-- Clients that send any requests, one after another each. -/
def clients (ι : Type) : Clients api ι Unit Request Answer where
  ready _ _ _ := True
  body _ _ request := (fun reply => ⟨request, reply⟩) <$> (handle request).run
  resume _ _ _ _ := ()

/-- No request has been sent, and nothing is stored. -/
def start (ι : Type) : Config api Store ι Unit Request Answer := ⟨Store.empty, fun _ => .idle ()⟩

/-- A handler only ever issues calls that insert or read. -/
theorem uses_inserts (request : Request) :
    ((fun reply => (⟨request, reply⟩ : Answer)) <$> (handle request).run).Uses (I := api)
      Call.Inserts := by
  rw [map_eq_pure_bind]
  refine Uses.bind (Uses.mono ?_ (uses_handle request)) fun reply => uses_pure _
  rintro op (hread | hwrites)
  · exact inserts_of_isRead hread
  · exact hwrites.inserts

/-- Nothing but the requests changes the store. -/
def noEnvironment (_ _ : Store) : Prop := False

/-- Every client keeps the store consistent and growing, and relies on nothing. -/
def outline (ι : Type) : Clients.Outline Store ι Unit Request Answer where
  inv s := s.contents.Consistent
  guar _ s t := s.Grows t ∧ (s.contents.Consistent → t.contents.Consistent)
  rely _ _ _ := True
  knows _ _ _ := True
  post _ _ _ _ _ := True

theorem outline_valid {E : Effect api Store} (hE : Sound E) (ι : Type) :
    (outline ι).Valid (clients ι) E noEnvironment where
  rely_refl _ _ := trivial
  rely_trans _ _ _ _ _ _ := trivial
  guar_inv _ _ _ hinv hguar := hguar.2 hinv
  guar_rely _ _ _ _ _ _ _ := trivial
  env_inv _ _ _ henv := henv.elim
  env_rely _ _ _ _ henv := henv.elim
  knows_stable _ _ _ _ _ _ := trivial
  body_safe _ _ request s _ _ _ := by
    refine Safe.of_uses (uses_inserts request) (fun op s reply t hinserts _ heffect => ?_) s
    exact ⟨hE.grows hinserts heffect, hE.consistent heffect⟩
  resume_knows _ _ _ _ _ _ _ := trivial

/-- **Runs of the service.** Start from an empty store and let any number of
clients send any requests, their store calls interleaving freely, against a store
whose failing calls may even have had their effect. In every state that is reached
records conform to stored types and events have both their ends; and whatever is
reached from there has all of its records and events unchanged, and its types
under the same names and ids with at least the same properties. -/
theorem consistent_of_steps {E : Effect api Store} (hE : Sound E) (ι : Type) [DecidableEq ι]
    {c d : Config api Store ι Unit Request Answer}
    (hreached : (clients ι).Steps E noEnvironment (start ι) c)
    (hlater : (clients ι).Steps E noEnvironment c d) :
    c.state.contents.Consistent ∧ c.state.Grows d.state := by
  have hvalid := outline_valid hE ι
  have hstart : (outline ι).Holds E (start ι) := ⟨consistent_empty, fun _ => trivial⟩
  have hc := Clients.Steps.holds hvalid hreached hstart
  refine ⟨hc.1, ?_⟩
  exact Clients.Steps.related hvalid (fun s => Contents.Grows.refl s.contents)
    (fun _ _ _ hfirst hsecond => hfirst.trans hsecond) (fun _ _ _ _ hguar => hguar.1)
    (fun _ _ _ henv => henv.elim) hlater hc

/-! ## A small run -/

section Run

variable {ι : Type} [DecidableEq ι]

/-- An answer of the handler of a request in memory, and the store it leaves. -/
def answerTo (s : Store) (request : Request) : Answer × Store :=
  ((clients Unit).body () () request).run inMemory s

/-- A request of one client is answered before anyone else does anything. -/
def answered (c : Config api Store ι Unit Request Answer) (i : ι) (request : Request) :
    Config api Store ι Unit Request Answer :=
  ⟨(answerTo c.state request).2,
    Function.update c.phase i (.busy () request (.done (answerTo c.state request).1))⟩

theorem steps_answered (c : Config api Store ι Unit Request Answer) {i : ι}
    (hidle : c.phase i = .idle ()) (request : Request) :
    (clients ι).Steps inMemory.effect noEnvironment c (answered c i request) :=
  Clients.Steps.of_runs (clients ι) noEnvironment i () request hidle trivial
    (runs_of_run inMemory _ c.state)

theorem answered_phase (c : Config api Store ι Unit Request Answer) {i j : ι} (hj : j ≠ i)
    (request : Request) : (answered c i request).phase j = c.phase j :=
  Function.update_of_ne hj _ _

/-- A request of one client has made its first call. -/
def begun (c : Config api Store ι Unit Request Answer) (i : ι) (request : Request) :
    Config api Store ι Unit Request Answer :=
  match (clients ι).body i () request with
  | .done answer => ⟨c.state, Function.update c.phase i (.busy () request (.done answer))⟩
  | .call op next =>
      ⟨(inMemory op c.state).2,
        Function.update c.phase i (.busy () request (next (inMemory op c.state).1))⟩

theorem steps_begun (c : Config api Store ι Unit Request Answer) {i : ι}
    (hidle : c.phase i = .idle ()) (request : Request) :
    (clients ι).Steps inMemory.effect noEnvironment c (begun c i request) := by
  have hstart : (clients ι).Steps inMemory.effect noEnvironment c
      ⟨c.state, Function.update c.phase i (.busy () request ((clients ι).body i () request))⟩ :=
    Relation.ReflTransGen.single (.start i () request hidle trivial)
  unfold begun
  cases hbody : (clients ι).body i () request with
  | done answer =>
      rw [hbody] at hstart
      exact hstart
  | call op next =>
      rw [hbody] at hstart
      have hcall := hstart.tail (.call i () request op next _ _ (Function.update_self ..) rfl)
      rwa [Function.update_idem] at hcall

theorem begun_phase (c : Config api Store ι Unit Request Answer) {i j : ι} (hj : j ≠ i)
    (request : Request) : (begun c i request).phase j = c.phase j := by
  unfold begun
  split
  next => exact Function.update_of_ne hj _ _
  next => exact Function.update_of_ne hj _ _

end Run

def createTypeM : Request := .createArtifactType (some ⟨none, some "m", ∅⟩)

def createM : Request := .createArtifact "artifact_types/m" (some ⟨none, none, ∅, ∅, none⟩)

def createTypeR : Request := .createExecutionType (some ⟨none, some "r", ∅⟩)

def createR : Request := .createExecution "execution_types/r" (some ⟨none, none, ∅, ∅, ()⟩)

/-- The run has put out the artifact. -/
def outputM : Event := ⟨some 1, some 1, .output, none⟩

/-- A client waits for the answer that its type has been created, while others create an
artifact of it, an execution, and an event of both. -/
theorem consistent_of_requests : ∃ c d : Config api Store Nat Unit Request Answer,
    (c.state.contents.items .artifact).length = 1 ∧
      (d.state.contents.items .execution).length = 1 ∧ d.state.contents.events.length = 1 ∧
      c.state.contents.Consistent ∧ c.state.Grows d.state := by
  let waiting := begun (start Nat) 0 createTypeM
  let created := answered waiting 1 createM
  let typed := answered created 2 createTypeR
  let run := answered typed 3 createR
  have hwaiting : ∀ i, i ≠ 0 → waiting.phase i = .idle () := fun i hi => begun_phase _ hi _
  have hcreated : ∀ i, 1 < i → created.phase i = .idle () := fun i hi =>
    (answered_phase waiting (by omega) createM).trans (hwaiting i (by omega))
  have htyped : ∀ i, 2 < i → typed.phase i = .idle () := fun i hi =>
    (answered_phase created (by omega) createTypeR).trans (hcreated i (by omega))
  have hrun : ∀ i, 3 < i → run.phase i = .idle () := fun i hi =>
    (answered_phase typed (by omega) createR).trans (htyped i (by omega))
  have hfirst := (steps_begun (start Nat) (i := 0) rfl createTypeM).trans
    (steps_answered waiting (hwaiting 1 (by decide)) createM)
  have hlater := ((steps_answered created (hcreated 2 (by decide)) createTypeR).trans
    (steps_answered typed (htyped 3 (by decide)) createR)).trans
      (steps_answered run (hrun 4 (by decide)) (.createEvent (some outputM)))
  have hresult := consistent_of_steps inMemory_available.toLawful.sound Nat hfirst hlater
  exact ⟨_, _, by decide +kernel, by decide +kernel, by decide +kernel, hresult⟩

end KfMetadata.Service
