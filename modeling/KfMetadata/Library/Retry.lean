/-
# Calls that are tried again

A caller that sees a call fail makes it again, until one attempt is answered or it
gives up. An attempt may fail before it has had its effect, or after it: then only
the reply is lost, and the caller cannot tell the two apart. The reply of the last
attempt is the reply of the call.

For a state that keeps a record of what was attempted, the record tells how often
each call took effect: once for every lost reply and once for the one that arrived.
-/

import KfMetadata.Library.RemoteProgram
import Mathlib.Algebra.BigOperators.Group.List.Basic
import Mathlib.Algebra.GroupWithZero.Nat

namespace Remote

variable {I : Interface} {σ α : Type}

/-- How an attempt ended. -/
inductive Outcome
  /-- It had no effect. -/
  | failed
  /-- It had its effect, and the reply got lost. -/
  | lost
  /-- It had its effect, and was answered. -/
  | replied
  deriving DecidableEq, Repr

/-- In how many of the attempts the call took effect. -/
def took (outcomes : List Outcome) : Nat := outcomes.count .lost + outcomes.count .replied

/-- What one attempt may do, for each way it may end, and which replies are failures. -/
structure Attempts (I : Interface) (σ : Type) where
  effect : Outcome → Effect I σ
  fails : (op : I.Op) → I.Reply op → Prop
  /-- A caller sees success exactly when it is answered. -/
  answered : ∀ outcome op s reply t, effect outcome op s reply t →
    (¬ fails op reply ↔ outcome = .replied)

/-- One attempt after another while they fail, and the reply of the last. -/
inductive Retried (attempts : Attempts I σ) (op : I.Op) :
    List Outcome → σ → I.Reply op → σ → Prop
  /-- The attempt is answered, or the caller gives up. -/
  | once {outcome : Outcome} {s t : σ} {reply : I.Reply op}
      (hattempt : attempts.effect outcome op s reply t) :
      Retried attempts op [outcome] s reply t
  /-- The attempt fails, and the caller tries again. -/
  | again {outcome : Outcome} {outcomes : List Outcome} {s u t : σ} {failure reply : I.Reply op}
      (hattempt : attempts.effect outcome op s failure u) (hfails : attempts.fails op failure)
      (hrest : Retried attempts op outcomes u reply t) :
      Retried attempts op (outcome :: outcomes) s reply t

namespace Retried

variable {attempts : Attempts I σ} {op : I.Op} {outcomes : List Outcome} {s t : σ}
  {reply : I.Reply op}

/-- What every attempt does to the state, all of them do. -/
theorem related {R : σ → σ → Prop} (htrans : ∀ s t u, R s t → R t u → R s u)
    (heach : ∀ outcome s reply t, attempts.effect outcome op s reply t → R s t)
    (hretried : Retried attempts op outcomes s reply t) : R s t := by
  induction hretried with
  | once hattempt => exact heach _ _ _ _ hattempt
  | again hattempt _ _ ih => exact htrans _ _ _ (heach _ _ _ _ hattempt) ih

/-- A call that succeeds does so in its last attempt, and only there. -/
theorem succeeded (hretried : Retried attempts op outcomes s reply t)
    (hsuccess : ¬ attempts.fails op reply) :
    outcomes.count .replied = 1 ∧ ∃ u, attempts.effect .replied op u reply t := by
  induction hretried with
  | @once outcome s t reply hattempt =>
      obtain rfl := (attempts.answered _ _ _ _ _ hattempt).mp hsuccess
      exact ⟨rfl, s, hattempt⟩
  | @again outcome outcomes s u t failure reply hattempt hfails _ ih =>
      have hne : outcome ≠ .replied := fun hreplied =>
        (attempts.answered _ _ _ _ _ hattempt).mpr hreplied hfails
      obtain ⟨hcount, hlast⟩ := ih hsuccess
      exact ⟨by rw [List.count_cons_of_ne hne]; exact hcount, hlast⟩

/-- One attempt that was answered is all there was. -/
theorem of_replied (hretried : Retried attempts op [.replied] s reply t) :
    attempts.effect .replied op s reply t := by
  cases hretried with
  | once hattempt => exact hattempt
  | again _ _ hrest => cases hrest

/-- It took effect once more than replies were lost. -/
theorem took_eq (hretried : Retried attempts op outcomes s reply t)
    (hsuccess : ¬ attempts.fails op reply) : took outcomes = 1 + outcomes.count .lost := by
  rw [took, (hretried.succeeded hsuccess).1, Nat.add_comm]

/-- A quantity that each effect of a call raises by `n`. -/
theorem measured {measure : σ → Nat} {n : Nat}
    (hfailed : ∀ s reply t, attempts.effect .failed op s reply t → measure t = measure s)
    (htook : ∀ outcome s reply t, outcome ≠ .failed → attempts.effect outcome op s reply t →
      measure t = measure s + n)
    (hretried : Retried attempts op outcomes s reply t) :
    measure t = measure s + n * took outcomes := by
  have hone : ∀ outcome s reply t, attempts.effect outcome op s reply t →
      measure t = measure s + n * took [outcome] := by
    intro outcome s reply t hattempt
    cases outcome with
    | failed => simpa [took] using hfailed s reply t hattempt
    | lost => simpa [took] using htook .lost s reply t (by decide) hattempt
    | replied => simpa [took] using htook .replied s reply t (by decide) hattempt
  induction hretried with
  | once hattempt => exact hone _ _ _ _ hattempt
  | @again outcome outcomes s u t failure reply hattempt _ _ ih =>
      have hsplit : took (outcome :: outcomes) = took [outcome] + took outcomes := by
        simp only [took, List.count_cons, List.count_nil]
        omega
      rw [ih, hone _ _ _ _ hattempt, hsplit, Nat.mul_add, Nat.add_assoc]

end Retried

/-! ## A record of the attempts -/

/-- A state, and how the attempts of each call made so far ended. -/
structure Recorded (I : Interface) (σ : Type) where
  state : σ
  calls : List (I.Op × List Outcome)

/-- A call with all its attempts, which are put on record. -/
def Attempts.recorded (attempts : Attempts I σ) : Effect I (Recorded I σ) := fun op s reply t =>
  ∃ outcomes, Retried attempts op outcomes s.state reply t.state ∧
    t.calls = s.calls ++ [(op, outcomes)]

/-- Between the two states every call was answered at its first attempt. -/
def AnsweredAtOnce (s t : Recorded I σ) : Prop :=
  ∃ made, t.calls = s.calls ++ made ∧ ∀ c ∈ made, c.2 = [.replied]

/-- What holds of a stretch of the record holds of its parts. -/
theorem AnsweredAtOnce.split {s t u : Recorded I σ} (hfirst : s.calls <+: t.calls)
    (hsecond : t.calls <+: u.calls) (hatonce : AnsweredAtOnce s u) :
    AnsweredAtOnce s t ∧ AnsweredAtOnce t u := by
  obtain ⟨made, hmade, honce⟩ := hatonce
  obtain ⟨made₁, hmade₁⟩ := hfirst
  obtain ⟨made₂, hmade₂⟩ := hsecond
  obtain rfl : made = made₁ ++ made₂ := by
    rw [← hmade₂, ← hmade₁, List.append_assoc] at hmade
    exact (List.append_cancel_left hmade).symm
  exact ⟨⟨made₁, hmade₁.symm, fun c hc => honce c (List.mem_append_left _ hc)⟩,
    ⟨made₂, hmade₂.symm, fun c hc => honce c (List.mem_append_right _ hc)⟩⟩

namespace Program

variable {attempts : Attempts I σ} {p : Program I α} {s t : Recorded I σ} {a : α}

/-- What every attempt of every call does to the state, a run does. -/
theorem Runs.recorded_related {R : σ → σ → Prop} (hrefl : ∀ s, R s s)
    (htrans : ∀ s t u, R s t → R t u → R s u)
    (heach : ∀ outcome op s reply t, attempts.effect outcome op s reply t → R s t)
    (hrun : p.Runs attempts.recorded s a t) : R s.state t.state := by
  induction p generalizing s with
  | done value =>
      obtain ⟨-, rfl⟩ := runs_pure.mp hrun
      exact hrefl s.state
  | call op next ih =>
      obtain ⟨reply, u, ⟨outcomes, hretried, -⟩, hrest⟩ := runs_call.mp hrun
      exact htrans _ _ _ (hretried.related htrans fun _ => heach _ op) (ih reply hrest)

/-- A run adds to the record. -/
theorem Runs.calls_prefix (hrun : p.Runs attempts.recorded s a t) :
    ∃ made, t.calls = s.calls ++ made := by
  induction p generalizing s with
  | done value =>
      obtain ⟨-, rfl⟩ := runs_pure.mp hrun
      exact ⟨[], (List.append_nil _).symm⟩
  | call op next ih =>
      obtain ⟨reply, u, ⟨outcomes, -, hcalls⟩, hrest⟩ := runs_call.mp hrun
      obtain ⟨made, hmade⟩ := ih reply hrest
      exact ⟨(op, outcomes) :: made, by rw [hmade, hcalls, List.append_assoc]; rfl⟩

/-- A run whose calls are answered at once is a run against the answers alone. -/
theorem Runs.of_answeredAtOnce (hrun : p.Runs attempts.recorded s a t)
    (hatonce : AnsweredAtOnce s t) : p.Runs (attempts.effect .replied) s.state a t.state := by
  induction p generalizing s with
  | done value =>
      obtain ⟨rfl, rfl⟩ := runs_pure.mp hrun
      exact runs_pure.mpr ⟨rfl, rfl⟩
  | call op next ih =>
      obtain ⟨reply, u, ⟨outcomes, hretried, hcalls⟩, hrest⟩ := runs_call.mp hrun
      obtain ⟨later, hlater⟩ := hrest.calls_prefix
      obtain ⟨⟨made, hmade, honce⟩, hrestOnce⟩ :=
        hatonce.split ⟨[(op, outcomes)], hcalls.symm⟩ ⟨later, hlater.symm⟩
      obtain rfl := List.append_cancel_left (hcalls.symm.trans hmade)
      obtain rfl : outcomes = [.replied] := honce _ (List.mem_singleton_self _)
      exact runs_call.mpr ⟨reply, u.state, hretried.of_replied, ih reply hrest hrestOnce⟩

/-- A quantity that each effect of a call `op` raises by `weight op` grows by what is put
on record. -/
theorem Runs.accounted (measure : σ → Nat) (weight : I.Op → Nat)
    (hfailed : ∀ op s reply t, attempts.effect .failed op s reply t → measure t = measure s)
    (htook : ∀ op outcome s reply t, outcome ≠ .failed → attempts.effect outcome op s reply t →
      measure t = measure s + weight op)
    (hrun : p.Runs attempts.recorded s a t) {made : List (I.Op × List Outcome)}
    (hmade : t.calls = s.calls ++ made) :
    measure t.state = measure s.state + (made.map fun c => weight c.1 * took c.2).sum := by
  induction p generalizing s made with
  | done value =>
      obtain ⟨-, rfl⟩ := runs_pure.mp hrun
      obtain rfl := List.append_cancel_left (hmade.symm.trans (List.append_nil _).symm)
      rfl
  | call op next ih =>
      obtain ⟨reply, u, ⟨outcomes, hretried, hcalls⟩, hrest⟩ := runs_call.mp hrun
      obtain ⟨rest, hlater⟩ := hrest.calls_prefix
      obtain rfl : made = (op, outcomes) :: rest := by
        rw [hlater, hcalls, List.append_assoc] at hmade
        exact (List.append_cancel_left hmade).symm
      rw [ih reply hrest hlater, hretried.measured (hfailed op) (htook op), List.map_cons,
        List.sum_cons, Nat.add_assoc]

end Program

end Remote
