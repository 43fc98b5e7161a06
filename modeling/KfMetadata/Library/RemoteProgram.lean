/-
# Programs that call a remote service

A client is a finite tree of calls: it either has its answer or issues one
method call and continues with whatever reply comes back. The service is known
only through an effect, the relation saying which replies and which next states
a call may have; nondeterminism, refusals and faults are all choices of that
relation. Running a program against an effect is the big-step reading, and
restricting which calls a program may issue at all is a property of the tree
alone, independent of the service.
-/

import Mathlib.Logic.Relation

namespace Remote

/-- The methods of a remote service, each with the type of its reply. -/
structure Interface where
  /-- A method call together with its arguments. -/
  Op : Type
  /-- What the call answers. -/
  Reply : Op → Type

variable {I : Interface} {σ α β ε : Type}

/-- A client program: a result, or one call and a continuation for its reply. -/
inductive Program (I : Interface) (α : Type) : Type
  | done (value : α)
  | call (op : I.Op) (next : I.Reply op → Program I α)

/-- Which replies and next states a call may have in a given state. -/
abbrev Effect (I : Interface) (σ : Type) : Type :=
  (op : I.Op) → σ → I.Reply op → σ → Prop

/-- A service that answers every call in exactly one way. -/
abbrev Server (I : Interface) (σ : Type) : Type :=
  (op : I.Op) → σ → I.Reply op × σ

/-- The effect of a deterministic service. -/
def Server.effect (server : Server I σ) : Effect I σ :=
  fun op s reply t => server op s = (reply, t)

/-- Every call has some outcome in every state. -/
def Effect.Responds (E : Effect I σ) : Prop :=
  ∀ op s, ∃ reply t, E op s reply t

theorem Server.effect_responds (server : Server I σ) : server.effect.Responds :=
  fun op s => ⟨(server op s).1, (server op s).2, rfl⟩

namespace Program

/-- Sequential composition. -/
def bind : Program I α → (α → Program I β) → Program I β
  | .done value, f => f value
  | .call op next, f => .call op fun reply => (next reply).bind f

instance : Monad (Program I) where
  pure := .done
  bind := bind

theorem bind_eq (p : Program I α) (f : α → Program I β) : p >>= f = p.bind f := rfl

@[simp]
theorem bind_done (p : Program I α) : p.bind .done = p := by
  induction p with
  | done value => rfl
  | call op next ih =>
      simp only [bind]
      congr 1
      funext reply
      exact ih reply

theorem bind_assoc {γ : Type} (p : Program I α) (f : α → Program I β)
    (g : β → Program I γ) : (p.bind f).bind g = p.bind fun value => (f value).bind g := by
  induction p with
  | done value => rfl
  | call op next ih =>
      simp only [bind]
      congr 1
      funext reply
      exact ih reply

instance : LawfulMonad (Program I) :=
  LawfulMonad.mk' (Program I) bind_done (fun _ _ => rfl) bind_assoc

/-- Issue one call and return its reply. -/
def request (op : I.Op) : Program I (I.Reply op) := .call op .done

/-- The call that a program starts with, if it makes any. -/
def firstCall : Program I α → Option I.Op
  | .done _ => none
  | .call op _ => some op

/-! ## Running a program -/

/-- The program may finish with `a` in state `t` when started in state `s`. -/
def Runs (E : Effect I σ) : Program I α → σ → α → σ → Prop
  | .done value, s, a, t => value = a ∧ s = t
  | .call op next, s, a, t => ∃ reply u, E op s reply u ∧ (next reply).Runs E u a t

variable {E : Effect I σ}

@[simp]
theorem runs_pure {value a : α} {s t : σ} :
    (pure value : Program I α).Runs E s a t ↔ value = a ∧ s = t := Iff.rfl

@[simp]
theorem runs_request {op : I.Op} {s t : σ} {reply : I.Reply op} :
    (request op).Runs E s reply t ↔ E op s reply t := by
  simp [request, Runs]

@[simp]
theorem runs_call {op : I.Op} {next : I.Reply op → Program I α} {s t : σ} {a : α} :
    (Program.call op next).Runs E s a t ↔
      ∃ reply u, E op s reply u ∧ (next reply).Runs E u a t := Iff.rfl

/-- A composed run is a run of the first part followed by one of the second. -/
theorem runs_bind {p : Program I α} {f : α → Program I β} {s t : σ} {b : β} :
    (p >>= f).Runs E s b t ↔ ∃ a u, p.Runs E s a u ∧ (f a).Runs E u b t := by
  rw [bind_eq]
  induction p generalizing s with
  | done value =>
      apply Iff.intro
      · intro hrest
        exact ⟨value, s, ⟨rfl, rfl⟩, hrest⟩
      · rintro ⟨a, u, ⟨rfl, rfl⟩, hrest⟩
        exact hrest
  | call op next ih =>
      simp only [bind, Runs, ih]
      apply Iff.intro
      · rintro ⟨reply, u, heffect, a, v, hfirst, hrest⟩
        exact ⟨a, v, ⟨reply, u, heffect, hfirst⟩, hrest⟩
      · rintro ⟨a, v, ⟨reply, u, heffect, hfirst⟩, hrest⟩
        exact ⟨reply, u, heffect, a, v, hfirst, hrest⟩

theorem Runs.map {p : Program I α} {s t : σ} {a : α} (f : α → β) (hrun : p.Runs E s a t) :
    (f <$> p).Runs E s (f a) t := by
  rw [map_eq_pure_bind]
  exact runs_bind.mpr ⟨a, t, hrun, rfl, rfl⟩

theorem runs_map {p : Program I α} {f : α → β} {s t : σ} {b : β} :
    (f <$> p).Runs E s b t ↔ ∃ a, p.Runs E s a t ∧ f a = b := by
  apply Iff.intro
  · intro hrun
    rw [map_eq_pure_bind, runs_bind] at hrun
    obtain ⟨a, u, hp, hb, rfl⟩ := hrun
    exact ⟨a, hp, hb⟩
  · intro hrun
    obtain ⟨a, hp, rfl⟩ := hrun
    exact hp.map f

/-- A program always finishes when every call responds. -/
theorem exists_runs (hresponds : E.Responds) (p : Program I α) (s : σ) :
    ∃ a t, p.Runs E s a t := by
  induction p generalizing s with
  | done value => exact ⟨value, s, rfl, rfl⟩
  | call op next ih =>
      obtain ⟨reply, u, heffect⟩ := hresponds op s
      obtain ⟨a, t, hrest⟩ := ih reply u
      exact ⟨a, t, reply, u, heffect, hrest⟩

/-- Evaluate a program against a deterministic service. -/
def run (server : Server I σ) : Program I α → σ → α × σ
  | .done value, s => (value, s)
  | .call op next, s => (next (server op s).1).run server (server op s).2

/-- Evaluation computes the one run there is. -/
theorem runs_effect_iff {server : Server I σ} {p : Program I α} {s t : σ} {a : α} :
    p.Runs server.effect s a t ↔ p.run server s = (a, t) := by
  induction p generalizing s with
  | done value => simp [Runs, run]
  | call op next ih =>
      simp only [Runs, run, Server.effect, ih]
      apply Iff.intro
      · rintro ⟨reply, u, heffect, hrest⟩
        rw [heffect]
        exact hrest
      · intro hrun
        exact ⟨_, _, rfl, hrun⟩

/-- What evaluation computes is a run. -/
theorem runs_of_run (server : Server I σ) (p : Program I α) (s : σ) :
    p.Runs server.effect s (p.run server s).1 (p.run server s).2 :=
  runs_effect_iff.mpr rfl

/-! ## Programs that may fail

`ExceptT` over programs is the shape of code that stops at the first error. -/

@[simp]
theorem runs_run_pure {value : α} {s t : σ} {r : Except ε α} :
    (pure value : ExceptT ε (Program I) α).run.Runs E s r t ↔ .ok value = r ∧ s = t := Iff.rfl

@[simp]
theorem runs_run_throw {e : ε} {s t : σ} {r : Except ε α} :
    (throw e : ExceptT ε (Program I) α).run.Runs E s r t ↔ .error e = r ∧ s = t := Iff.rfl

/-- A failing composition either stopped in the first part or ran both. -/
theorem runs_run_bind {x : ExceptT ε (Program I) α} {f : α → ExceptT ε (Program I) β}
    {s t : σ} {r : Except ε β} :
    (x >>= f).run.Runs E s r t ↔
      (∃ e, r = .error e ∧ x.run.Runs E s (.error e) t) ∨
        ∃ a u, x.run.Runs E s (.ok a) u ∧ (f a).run.Runs E u r t := by
  rw [ExceptT.run_bind, runs_bind]
  apply Iff.intro
  · rintro ⟨result, u, hfirst, hrest⟩
    cases result with
    | ok a => exact Or.inr ⟨a, u, hfirst, hrest⟩
    | error e =>
        obtain ⟨hresult, rfl⟩ := hrest
        exact Or.inl ⟨e, hresult.symm, hfirst⟩
  · rintro (⟨e, rfl, hfirst⟩ | ⟨a, u, hfirst, hrest⟩)
    · exact ⟨.error e, t, hfirst, rfl, rfl⟩
    · exact ⟨.ok a, u, hfirst, hrest⟩

/-- Success of a composition means success of both parts. -/
theorem runs_run_bind_ok {x : ExceptT ε (Program I) α} {f : α → ExceptT ε (Program I) β}
    {s t : σ} {b : β} :
    (x >>= f).run.Runs E s (.ok b) t ↔
      ∃ a u, x.run.Runs E s (.ok a) u ∧ (f a).run.Runs E u (.ok b) t := by
  rw [runs_run_bind]
  apply Iff.intro
  · rintro (⟨e, herror, -⟩ | hok)
    · cases herror
    · exact hok
  · exact Or.inr

/-- Renaming the exceptions does not change what succeeds. -/
theorem runs_adapt_ok {ε' : Type} {f : ε → ε'} {x : ExceptT ε (Program I) α} {s t : σ} {a : α} :
    (ExceptT.adapt f x).run.Runs E s (.ok a) t ↔ x.run.Runs E s (.ok a) t := by
  show (Except.mapError f <$> x.run).Runs E s (.ok a) t ↔ _
  rw [map_eq_pure_bind, runs_bind]
  apply Iff.intro
  · rintro ⟨result, u, hx, hresult, rfl⟩
    cases result with
    | error e => cases hresult
    | ok b =>
        cases hresult
        exact hx
  · intro hx
    exact ⟨.ok a, t, hx, rfl, rfl⟩

/-- An exception that is renamed was raised. -/
theorem runs_adapt_error {ε' : Type} {f : ε → ε'} {x : ExceptT ε (Program I) α} {s t : σ}
    {e' : ε'} : (ExceptT.adapt f x).run.Runs E s (.error e') t ↔
      ∃ e, f e = e' ∧ x.run.Runs E s (.error e) t := by
  show (Except.mapError f <$> x.run).Runs E s (.error e') t ↔ _
  rw [map_eq_pure_bind, runs_bind]
  apply Iff.intro
  · rintro ⟨result, u, hx, hresult, rfl⟩
    cases result with
    | ok a => cases hresult
    | error e =>
        cases hresult
        exact ⟨e, rfl, hx⟩
  · rintro ⟨e, rfl, hx⟩
    exact ⟨.error e, t, hx, rfl, rfl⟩

/-- Evaluation that ends in a value is a run with that value. -/
theorem runs_run_of_toOption (server : Server I σ) (x : ExceptT ε (Program I) α) (s : σ) {a : α}
    (hvalue : (x.run.run server s).1.toOption = some a) :
    x.run.Runs server.effect s (.ok a) (x.run.run server s).2 := by
  refine runs_effect_iff.mpr (Prod.ext ?_ rfl)
  cases hresult : (x.run.run server s).1 with
  | ok b =>
      rw [hresult] at hvalue
      exact congrArg Except.ok (Option.some.inj hvalue)
  | error e =>
      rw [hresult] at hvalue
      cases hvalue

/-! ## Which calls a program may issue -/

/-- Whatever the replies, the program only ever issues allowed calls. -/
def Uses (allowed : I.Op → Prop) : Program I α → Prop
  | .done _ => True
  | .call op next => allowed op ∧ ∀ reply, (next reply).Uses allowed

variable {allowed : I.Op → Prop}

@[simp]
theorem uses_pure (value : α) : (pure value : Program I α).Uses allowed := trivial

@[simp]
theorem uses_request {op : I.Op} : (request op).Uses allowed ↔ allowed op := by
  simp [request, Uses]

theorem Uses.mono {allowed' : I.Op → Prop} (hmono : ∀ op, allowed op → allowed' op)
    {p : Program I α} (huses : p.Uses allowed) : p.Uses allowed' := by
  induction p with
  | done value => trivial
  | call op next ih => exact ⟨hmono op huses.1, fun reply => ih reply (huses.2 reply)⟩

theorem Uses.bind {p : Program I α} {f : α → Program I β} (hfirst : p.Uses allowed)
    (hrest : ∀ a, (f a).Uses allowed) : (p >>= f).Uses allowed := by
  rw [bind_eq]
  induction p with
  | done value => exact hrest value
  | call op next ih => exact ⟨hfirst.1, fun reply => ih reply (hfirst.2 reply)⟩

@[simp]
theorem uses_run_pure (value : α) :
    (pure value : ExceptT ε (Program I) α).run.Uses allowed := trivial

@[simp]
theorem uses_run_throw (e : ε) :
    (throw e : ExceptT ε (Program I) α).run.Uses allowed := trivial

theorem Uses.run_bind {x : ExceptT ε (Program I) α} {f : α → ExceptT ε (Program I) β}
    (hfirst : x.run.Uses allowed) (hrest : ∀ a, (f a).run.Uses allowed) :
    (x >>= f).run.Uses allowed := by
  rw [ExceptT.run_bind]
  apply Uses.bind hfirst
  intro result
  cases result with
  | ok a => exact hrest a
  | error e => exact uses_pure _

/-- A run against a service is a run against any that may behave as it does. -/
theorem Runs.mono {E' : Effect I σ} (hmono : ∀ op s reply t, E op s reply t → E' op s reply t)
    {p : Program I α} {s t : σ} {a : α} (hrun : p.Runs E s a t) : p.Runs E' s a t := by
  induction p generalizing s with
  | done value => exact hrun
  | call op next ih =>
      obtain ⟨reply, u, heffect, hrest⟩ := hrun
      exact ⟨reply, u, hmono op s reply u heffect, ih reply hrest⟩

/-- What every allowed call preserves, the whole run preserves. -/
theorem Runs.preserves {P : σ → Prop} {p : Program I α} (huses : p.Uses allowed)
    (hstep : ∀ op s reply t, allowed op → E op s reply t → P s → P t)
    {s t : σ} {a : α} (hrun : p.Runs E s a t) (hinv : P s) : P t := by
  induction p generalizing s with
  | done value =>
      obtain ⟨-, rfl⟩ := hrun
      exact hinv
  | call op next ih =>
      obtain ⟨reply, u, heffect, hrest⟩ := hrun
      exact ih reply (huses.2 reply) hrest (hstep op s reply u huses.1 heffect hinv)

/-- A program all of whose calls leave the state alone leaves it alone. -/
theorem Runs.state_eq {p : Program I α} (huses : p.Uses allowed)
    (hstep : ∀ op s reply t, allowed op → E op s reply t → t = s)
    {s t : σ} {a : α} (hrun : p.Runs E s a t) : t = s :=
  hrun.preserves (P := (· = s)) huses
    (fun op u reply v hallowed heffect hu =>
      (hstep op u reply v hallowed heffect).trans hu) rfl

-- Runs of concrete programs are taken apart by the lemmas above, never by evaluation.
attribute [irreducible] Runs

end Program

end Remote
