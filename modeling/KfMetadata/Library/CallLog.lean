/-
# Logs of calls

A run leaves a log behind: the calls that were made, in order, each with the reply
that came back. A log says all that a program has learnt of its service, so a run is
known from its log alone, by the replies that are played back from it, whatever the
service was.

Code that may fail heeds its failures if it ends in an error whenever a reply in the
log was a failure. The rules follow the composition of the code.
-/

import KfMetadata.Library.RemoteProgram

namespace Remote

variable {I : Interface} {σ α β ε : Type}

/-- A call and its reply. -/
structure Exchange (I : Interface) where
  op : I.Op
  reply : I.Reply op

/-- The service, which logs its exchanges. -/
def Effect.logged (E : Effect I σ) : Effect I (σ × List (Exchange I)) :=
  fun op s reply t => E op s.1 reply t.1 ∧ t.2 = s.2 ++ [⟨op, reply⟩]

/-- The deterministic service, which logs its exchanges. -/
def Server.logged (server : Server I σ) : Server I (σ × List (Exchange I)) := fun op s =>
  ((server op s.1).1, (server op s.1).2, s.2 ++ [⟨op, (server op s.1).1⟩])

theorem Server.logged_effect (server : Server I σ) {op : I.Op} {s t : σ × List (Exchange I)}
    {reply : I.Reply op} (heffect : server.logged.effect op s reply t) :
    server.effect.logged op s reply t := by
  obtain ⟨rfl, rfl⟩ := Prod.mk.inj heffect
  exact ⟨rfl, rfl⟩

/-- The service that gives the replies of a log, as long as its calls are made. -/
def replay : Effect I (List (Exchange I)) := fun op log reply rest => log = ⟨op, reply⟩ :: rest

namespace Program

variable {E : Effect I σ} {p : Program I α} {a : α} {log rest : List (Exchange I)}

/-- Playing the log of a run back gives the same result. -/
theorem Runs.replay_of_logged {s t : σ × List (Exchange I)} (hrun : p.Runs E.logged s a t) :
    ∃ log, t.2 = s.2 ++ log ∧ p.Runs replay log a [] := by
  induction p generalizing s with
  | done value =>
      obtain ⟨rfl, rfl⟩ := runs_pure.mp hrun
      exact ⟨[], (List.append_nil _).symm, runs_pure.mpr ⟨rfl, rfl⟩⟩
  | call op next ih =>
      obtain ⟨reply, u, ⟨-, hu⟩, hrest⟩ := runs_call.mp hrun
      obtain ⟨log, ht, hreplay⟩ := ih reply hrest
      refine ⟨⟨op, reply⟩ :: log, ?_, runs_call.mpr ⟨reply, log, rfl, hreplay⟩⟩
      rw [ht, hu, List.append_assoc]
      rfl

/-- What is left of a log does not matter to the run. -/
theorem runs_replay : p.Runs replay log a rest ↔
    ∃ used, log = used ++ rest ∧ p.Runs replay used a [] := by
  induction p generalizing log with
  | done value =>
      apply Iff.intro
      · intro hrun
        obtain ⟨rfl, rfl⟩ := runs_pure.mp hrun
        exact ⟨[], rfl, runs_pure.mpr ⟨rfl, rfl⟩⟩
      · rintro ⟨used, rfl, hused⟩
        obtain ⟨rfl, rfl⟩ := runs_pure.mp hused
        exact runs_pure.mpr ⟨rfl, rfl⟩
  | call op next ih =>
      apply Iff.intro
      · intro hrun
        obtain ⟨reply, log', hlog, hrest⟩ := runs_call.mp hrun
        obtain ⟨used, rfl, hused⟩ := (ih reply).mp hrest
        exact ⟨⟨op, reply⟩ :: used, hlog, runs_call.mpr ⟨reply, used, rfl, hused⟩⟩
      · rintro ⟨used, rfl, hused⟩
        obtain ⟨reply, used', hlog, hrest⟩ := runs_call.mp hused
        refine runs_call.mpr ⟨reply, used' ++ rest, ?_, (ih reply).mpr ⟨used', rfl, hrest⟩⟩
        rw [replay, hlog]
        rfl

/-- The log holds only calls that the program may issue. -/
theorem Uses.replay {allowed : I.Op → Prop} (huses : p.Uses allowed)
    (hrun : p.Runs replay log a []) : ∀ x ∈ log, allowed x.op := by
  induction p generalizing log with
  | done value =>
      obtain ⟨-, rfl⟩ := runs_pure.mp hrun
      exact fun x hx => absurd hx List.not_mem_nil
  | call op next ih =>
      obtain ⟨reply, rest, rfl, hrest⟩ := runs_call.mp hrun
      intro x hx
      rcases List.mem_cons.mp hx with rfl | hlater
      · exact huses.1
      · exact ih reply (huses.2 reply) hrest x hlater

/-! ## Failures -/

/-- Whenever some reply is a failure, the code ends in an error. -/
def Heeds (failure : (op : I.Op) → I.Reply op → Prop) (x : ExceptT ε (Program I) α) : Prop :=
  ∀ log result, x.run.Runs Remote.replay log result [] →
    (∃ y ∈ log, failure y.op y.reply) → ∃ e, result = .error e

variable {failure : (op : I.Op) → I.Reply op → Prop}

/-- Code whose calls cannot fail has nothing to heed. -/
theorem Heeds.of_uses {x : ExceptT ε (Program I) α}
    (huses : x.run.Uses fun op => ∀ reply, ¬ failure op reply) : Heeds failure x := by
  rintro log result hrun ⟨y, hy, hfailure⟩
  exact absurd hfailure (huses.replay hrun y hy y.reply)

/-- One call, after which the reply decides. -/
theorem Heeds.of_call {op : I.Op} {f : I.Reply op → Program I (Except ε α)}
    (hreply : ∀ reply, ∃ result, f reply = pure result ∧
      (failure op reply → ∃ e, result = .error e)) :
    Heeds failure (ExceptT.mk (request op >>= f)) := by
  rintro log result hrun ⟨y, hy, hfailure⟩
  rw [ExceptT.run_mk, runs_bind] at hrun
  obtain ⟨reply, rest, hcall, hrest⟩ := hrun
  obtain ⟨decided, hf, herror⟩ := hreply reply
  rw [hf] at hrest
  obtain ⟨rfl, rfl⟩ := runs_pure.mp hrest
  obtain rfl : log = [⟨op, reply⟩] := runs_request.mp hcall
  obtain rfl := List.mem_singleton.mp hy
  exact herror hfailure

theorem Heeds.bind {x : ExceptT ε (Program I) α} {f : α → ExceptT ε (Program I) β}
    (hfirst : Heeds failure x) (hrest : ∀ a, Heeds failure (f a)) : Heeds failure (x >>= f) := by
  rintro log result hrun ⟨y, hy, hfailure⟩
  rcases runs_run_bind.mp hrun with ⟨e, rfl, -⟩ | ⟨a, rest, hx, hf⟩
  · exact ⟨e, rfl⟩
  · obtain ⟨used, rfl, hused⟩ := runs_replay.mp hx
    rcases List.mem_append.mp hy with hearlier | hlater
    · -- The first part has succeeded, so nothing had failed there.
      obtain ⟨e, herror⟩ := hfirst used _ hused ⟨y, hearlier, hfailure⟩
      cases herror
    · exact hrest a rest result hf ⟨y, hlater, hfailure⟩

end Program

end Remote
