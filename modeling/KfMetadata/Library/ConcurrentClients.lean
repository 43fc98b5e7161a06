/-
# Clients that share one service

Any number of clients work on one service at the same time. Each client is
idle, with a private memory, or busy with a job, of which it still has a
remaining program to run. A step starts a job, performs the next call of one
busy client, or ends a job; calls of different clients interleave freely. The
state may also change from outside, by whatever an environment relation allows.

Properties of all interleavings follow from one client at a time. A client's
guarantee bounds what its calls do to the shared state, and its rely bounds
what the calls of all the others do. A program that is safe when the rely may
act before each of its calls stays safe in every interleaving, provided each
client's guarantee is within everyone else's rely.
-/

import KfMetadata.Library.RemoteProgram
import Mathlib.Logic.Function.Basic

namespace Remote

variable {I : Interface} {σ ι Memory Job Answer α : Type}

/-! ## Safe programs -/

namespace Program

/-- Starting in the given state, with others acting by `rely` before each call
and before the result is used, every call of the program keeps `guar` and the
result satisfies `post`. The invariant may be assumed at each call. -/
def Safe (E : Effect I σ) (inv : σ → Prop) (rely guar : σ → σ → Prop)
    (post : α → σ → Prop) : Program I α → σ → Prop
  | .done a, s => ∀ t, rely s t → inv t → post a t
  | .call op next, s => ∀ t, rely s t → inv t → ∀ reply u, E op t reply u →
      guar t u ∧ (next reply).Safe E inv rely guar post u

variable {E : Effect I σ} {inv : σ → Prop} {rely guar : σ → σ → Prop}
  {post : α → σ → Prop}

/-- Interference does not spoil safety. -/
theorem Safe.stable (htrans : ∀ s t u, rely s t → rely t u → rely s u)
    {p : Program I α} {s t : σ} (hsafe : p.Safe E inv rely guar post s)
    (hrely : rely s t) : p.Safe E inv rely guar post t := by
  cases p with
  | done a =>
      intro u htu hinv
      exact hsafe u (htrans s t u hrely htu) hinv
  | call op next =>
      intro u htu hinv
      exact hsafe u (htrans s t u hrely htu) hinv

/-- A program that only issues calls keeping the guarantee is safe for the
trivial postcondition. -/
theorem Safe.of_uses {allowed : I.Op → Prop} {p : Program I α} (huses : p.Uses allowed)
    (hguar : ∀ op s reply t, allowed op → inv s → E op s reply t → guar s t) (s : σ) :
    p.Safe E inv rely guar (fun _ _ => True) s := by
  induction p generalizing s with
  | done a =>
      intro _ _ _
      exact trivial
  | call op next ih =>
      intro t _ hinv reply u heffect
      exact ⟨hguar op t reply u huses.1 hinv heffect, ih reply (huses.2 reply) u⟩

theorem Safe.mono {post' : α → σ → Prop} (himp : ∀ a t, inv t → post a t → post' a t)
    {p : Program I α} {s : σ} (hsafe : p.Safe E inv rely guar post s) :
    p.Safe E inv rely guar post' s := by
  induction p generalizing s with
  | done a =>
      intro t hrely hinv
      exact himp a t hinv (hsafe t hrely hinv)
  | call op next ih =>
      intro t hrely hinv reply u heffect
      obtain ⟨hguar, hnext⟩ := hsafe t hrely hinv reply u heffect
      exact ⟨hguar, ih reply hnext⟩

/-- Safety survives a stronger invariant and rely, and a weaker guarantee and postcondition. -/
theorem Safe.weaken {inv' : σ → Prop} {rely' guar' : σ → σ → Prop} {post' : α → σ → Prop}
    (hinv : ∀ s, inv' s → inv s) (hrely : ∀ s t, rely' s t → rely s t)
    (hguar : ∀ s t, guar s t → guar' s t) (hpost : ∀ a s, inv' s → post a s → post' a s)
    {p : Program I α} {s : σ} (hsafe : p.Safe E inv rely guar post s) :
    p.Safe E inv' rely' guar' post' s := by
  induction p generalizing s with
  | done a =>
      intro t hst hinv'
      exact hpost a t hinv' (hsafe t (hrely s t hst) (hinv t hinv'))
  | call op next ih =>
      intro t hst hinv' reply u heffect
      obtain ⟨hstep, hnext⟩ := hsafe t (hrely s t hst) (hinv t hinv') reply u heffect
      exact ⟨hguar t u hstep, ih reply hnext⟩

/-- What is shown of a program in two parts holds together. -/
theorem Safe.and {guar' : σ → σ → Prop} {post' : α → σ → Prop} {p : Program I α} {s : σ}
    (hfirst : p.Safe E inv rely guar post s) (hsecond : p.Safe E inv rely guar' post' s) :
    p.Safe E inv rely (fun s t => guar s t ∧ guar' s t) (fun a s => post a s ∧ post' a s) s := by
  induction p generalizing s with
  | done a =>
      intro t hrely hinv
      exact ⟨hfirst t hrely hinv, hsecond t hrely hinv⟩
  | call op next ih =>
      intro t hrely hinv reply u heffect
      obtain ⟨hguar, hnext⟩ := hfirst t hrely hinv reply u heffect
      obtain ⟨hguar', hnext'⟩ := hsecond t hrely hinv reply u heffect
      exact ⟨⟨hguar, hguar'⟩, ih reply hnext hnext'⟩

/-- A program is safe if it is safe wherever interference may have led. -/
theorem Safe.of_stable (hrefl : ∀ s, rely s s) {p : Program I α} {s : σ}
    (hsafe : ∀ t, rely s t → inv t → p.Safe E inv rely guar post t) :
    p.Safe E inv rely guar post s := by
  cases p with
  | done a =>
      intro t hrely hinv
      exact hsafe t hrely hinv t (hrefl t) hinv
  | call op next =>
      intro t hrely hinv
      exact hsafe t hrely hinv t (hrefl t) hinv

theorem Safe.pure {value : α} {s : σ} (hpost : ∀ t, rely s t → inv t → post value t) :
    (Pure.pure value : Program I α).Safe E inv rely guar post s := hpost

/-- Safety of a composition goes through what the first part establishes, and keeps
while others act. -/
theorem Safe.bind {β : Type} {post : β → σ → Prop} (mid : α → σ → Prop)
    (hrefl : ∀ s, rely s s) (htrans : ∀ s t u, rely s t → rely t u → rely s u)
    {p : Program I α} {f : α → Program I β} {s : σ}
    (hfirst : p.Safe E inv rely guar mid s)
    (hrest : ∀ a t, inv t → (∀ u, rely t u → inv u → mid a u) →
      (f a).Safe E inv rely guar post t) :
    (p >>= f).Safe E inv rely guar post s := by
  rw [bind_eq]
  induction p generalizing s with
  | done a =>
      exact Safe.of_stable hrefl fun t hst hinv => hrest a t hinv fun u htu hinv' =>
        hfirst u (htrans s t u hst htu) hinv'
  | call op next ih =>
      intro t hrely hinv reply u heffect
      obtain ⟨hguar, hnext⟩ := hfirst t hrely hinv reply u heffect
      exact ⟨hguar, ih reply hnext⟩

/-- Renaming the results renames the postcondition. -/
theorem Safe.map {β : Type} {post : β → σ → Prop} {f : α → β} (hrefl : ∀ s, rely s s)
    (htrans : ∀ s t u, rely s t → rely t u → rely s u) {p : Program I α} {s : σ}
    (hsafe : p.Safe E inv rely guar (fun a t => post (f a) t) s) :
    (f <$> p).Safe E inv rely guar post s := by
  rw [map_eq_pure_bind]
  exact Safe.bind _ hrefl htrans hsafe fun a t _ hmid => Safe.pure hmid

/-- What the program may rely on, and what survives its own calls, holds throughout. -/
theorem Safe.frame {P : σ → Prop} (hrely : ∀ s t, P s → rely s t → P t)
    (hguar : ∀ s t, P s → guar s t → P t) {p : Program I α} {s : σ} (hP : P s)
    (hsafe : p.Safe E inv rely guar post s) :
    p.Safe E inv rely guar (fun a t => post a t ∧ P t) s := by
  induction p generalizing s with
  | done a =>
      intro t hst hinv
      exact ⟨hsafe t hst hinv, hrely s t hP hst⟩
  | call op next ih =>
      intro t hst hinv reply u heffect
      obtain ⟨hstep, hnext⟩ := hsafe t hst hinv reply u heffect
      exact ⟨hstep, ih reply (hguar t u (hrely s t hP hst) hstep) hnext⟩

/-! ## Safe programs that may fail -/

/-- The program is safe, and its result satisfies `post` if it is no error. -/
def SafeOk {ε : Type} (E : Effect I σ) (inv : σ → Prop) (rely guar : σ → σ → Prop)
    (post : α → σ → Prop) (x : ExceptT ε (Program I) α) (s : σ) : Prop :=
  x.run.Safe E inv rely guar (fun result t => ∀ a, result = .ok a → post a t) s

theorem SafeOk.pure {ε : Type} {value : α} {s : σ}
    (hpost : ∀ t, rely s t → inv t → post value t) :
    SafeOk E inv rely guar post (Pure.pure value : ExceptT ε (Program I) α) s := by
  intro t hrely hinv a ha
  cases ha
  exact hpost t hrely hinv

theorem SafeOk.throw {ε : Type} (e : ε) (s : σ) :
    SafeOk E inv rely guar post (MonadExcept.throw e : ExceptT ε (Program I) α) s := by
  intro t _ _ a ha
  cases ha

/-- Safety of a composition that stops at the first error. -/
theorem SafeOk.bind {β ε : Type} {post : β → σ → Prop} (mid : α → σ → Prop)
    (hrefl : ∀ s, rely s s) (htrans : ∀ s t u, rely s t → rely t u → rely s u)
    {x : ExceptT ε (Program I) α} {f : α → ExceptT ε (Program I) β} {s : σ}
    (hfirst : SafeOk E inv rely guar mid x s)
    (hrest : ∀ a t, inv t → (∀ u, rely t u → inv u → mid a u) →
      SafeOk E inv rely guar post (f a) t) :
    SafeOk E inv rely guar post (x >>= f) s := by
  rw [SafeOk, ExceptT.run_bind]
  apply Safe.bind _ hrefl htrans hfirst
  intro result t hinv hmid
  cases result with
  | ok a => exact hrest a t hinv fun u hrely hinv' => hmid u hrely hinv' a rfl
  | error e => exact SafeOk.throw e t

/-- What is relied on and survives the calls holds of the result, too. -/
theorem SafeOk.frame {ε : Type} {P : σ → Prop} (hrely : ∀ s t, P s → rely s t → P t)
    (hguar : ∀ s t, P s → guar s t → P t) {x : ExceptT ε (Program I) α} {s : σ} (hP : P s)
    (hsafe : SafeOk E inv rely guar post x s) :
    SafeOk E inv rely guar (fun a t => post a t ∧ P t) x s :=
  (Safe.frame hrely hguar hP hsafe).mono fun _ _ _ hpost a ha => ⟨hpost.1 a ha, hpost.2⟩

end Program

/-! ## Configurations and steps -/

/-- What each client does: which jobs it may start, the program of a job, and
what it remembers afterwards. -/
structure Clients (I : Interface) (ι Memory Job Answer : Type) where
  ready : ι → Memory → Job → Prop
  body : ι → Memory → Job → Program I Answer
  resume : ι → Memory → Job → Answer → Memory

/-- Where one client stands. -/
inductive Phase (I : Interface) (Memory Job Answer : Type)
  | idle (memory : Memory)
  | busy (memory : Memory) (job : Job) (rest : Program I Answer)

/-- The shared state together with where every client stands. -/
structure Config (I : Interface) (σ ι Memory Job Answer : Type) where
  state : σ
  phase : ι → Phase I Memory Job Answer

namespace Clients

variable [DecidableEq ι] (clients : Clients I ι Memory Job Answer) (E : Effect I σ)
  (env : σ → σ → Prop)

/-- One step of one client, or from outside. -/
inductive Step : Config I σ ι Memory Job Answer → Config I σ ι Memory Job Answer → Prop
  /-- An idle client takes up a job. -/
  | start {c : Config I σ ι Memory Job Answer} (i : ι) (memory : Memory) (job : Job)
      (hphase : c.phase i = .idle memory) (hready : clients.ready i memory job) :
      Step c { c with
        phase := Function.update c.phase i (.busy memory job (clients.body i memory job)) }
  /-- A busy client performs its next call. -/
  | call {c : Config I σ ι Memory Job Answer} (i : ι) (memory : Memory) (job : Job)
      (op : I.Op) (next : I.Reply op → Program I Answer) (reply : I.Reply op) (t : σ)
      (hphase : c.phase i = .busy memory job (.call op next))
      (heffect : E op c.state reply t) :
      Step c ⟨t, Function.update c.phase i (.busy memory job (next reply))⟩
  /-- A client whose job has its answer becomes idle again. -/
  | finish {c : Config I σ ι Memory Job Answer} (i : ι) (memory : Memory) (job : Job)
      (answer : Answer) (hphase : c.phase i = .busy memory job (.done answer)) :
      Step c { c with
        phase := Function.update c.phase i (.idle (clients.resume i memory job answer)) }
  /-- The shared state changes from outside. -/
  | outside {c : Config I σ ι Memory Job Answer} (t : σ) (henv : env c.state t) :
      Step c { c with state := t }

/-- Any number of steps. -/
abbrev Steps : Config I σ ι Memory Job Answer → Config I σ ι Memory Job Answer → Prop :=
  Relation.ReflTransGen (clients.Step E env)

variable {E} in
/-- A client may take up a job and do all its calls before anyone else does anything. -/
theorem Steps.of_runs {c : Config I σ ι Memory Job Answer} (i : ι) (memory : Memory) (job : Job)
    {answer : Answer} {t : σ} (hphase : c.phase i = .idle memory)
    (hready : clients.ready i memory job)
    (hruns : (clients.body i memory job).Runs E c.state answer t) :
    clients.Steps E env c
      ⟨t, Function.update c.phase i (.busy memory job (.done answer))⟩ := by
  suffices hcalls : ∀ (p : Program I Answer) (s : σ), p.Runs E s answer t →
      clients.Steps E env ⟨s, Function.update c.phase i (.busy memory job p)⟩
        ⟨t, Function.update c.phase i (.busy memory job (.done answer))⟩ from
    Relation.ReflTransGen.head (Step.start i memory job hphase hready) (hcalls _ _ hruns)
  intro p s hruns
  induction p generalizing s with
  | done value =>
      obtain ⟨rfl, rfl⟩ := Program.runs_pure.mp hruns
      exact Relation.ReflTransGen.refl
  | call op next ih =>
      obtain ⟨reply, u, heffect, hrest⟩ := Program.runs_call.mp hruns
      refine Relation.ReflTransGen.head
        (Step.call i memory job op next reply u (Function.update_self ..) heffect) ?_
      rw [Function.update_idem]
      exact ih reply u hrest

/-! ## Rely and guarantee -/

/-- A proof outline: an invariant of the shared state and, for each client, what
it guarantees, what it relies on, what it knows while idle with a given memory,
and what its jobs establish. -/
structure Outline (σ ι Memory Job Answer : Type) where
  inv : σ → Prop
  guar : ι → σ → σ → Prop
  rely : ι → σ → σ → Prop
  knows : ι → Memory → σ → Prop
  post : ι → Memory → Job → Answer → σ → Prop

variable {clients E env}

/-- The obligations of a proof outline, one client at a time. -/
structure Outline.Valid (o : Outline σ ι Memory Job Answer)
    (clients : Clients I ι Memory Job Answer) (E : Effect I σ) (env : σ → σ → Prop) :
    Prop where
  rely_refl : ∀ i s, o.rely i s s
  rely_trans : ∀ i s t u, o.rely i s t → o.rely i t u → o.rely i s u
  guar_inv : ∀ i s t, o.inv s → o.guar i s t → o.inv t
  guar_rely : ∀ i j s t, i ≠ j → o.inv s → o.guar i s t → o.rely j s t
  env_inv : ∀ s t, o.inv s → env s t → o.inv t
  env_rely : ∀ i s t, o.inv s → env s t → o.rely i s t
  knows_stable : ∀ i memory s t, o.rely i s t → o.knows i memory s → o.knows i memory t
  body_safe : ∀ i memory job s, clients.ready i memory job → o.knows i memory s → o.inv s →
    (clients.body i memory job).Safe E o.inv (o.rely i) (o.guar i) (o.post i memory job) s
  resume_knows : ∀ i memory job answer s, o.inv s → o.post i memory job answer s →
    o.knows i (clients.resume i memory job answer) s

variable {o : Outline σ ι Memory Job Answer}

/-- What the outline promises of one client in a given state. -/
def Outline.PhaseHolds (o : Outline σ ι Memory Job Answer) (E : Effect I σ) (i : ι) (s : σ) :
    Phase I Memory Job Answer → Prop
  | .idle memory => o.knows i memory s
  | .busy memory job rest => rest.Safe E o.inv (o.rely i) (o.guar i) (o.post i memory job) s

/-- What the outline promises of a configuration. -/
def Outline.Holds (o : Outline σ ι Memory Job Answer) (E : Effect I σ)
    (c : Config I σ ι Memory Job Answer) : Prop :=
  o.inv c.state ∧ ∀ i, o.PhaseHolds E i c.state (c.phase i)

omit [DecidableEq ι] in
theorem Outline.PhaseHolds.stable (hvalid : o.Valid clients E env) {i : ι} {s t : σ}
    {phase : Phase I Memory Job Answer} (hholds : o.PhaseHolds E i s phase)
    (hrely : o.rely i s t) : o.PhaseHolds E i t phase := by
  cases phase with
  | idle memory => exact hvalid.knows_stable i memory s t hrely hholds
  | busy memory job rest => exact Program.Safe.stable (hvalid.rely_trans i) hholds hrely

/-- Replacing the phase of one client, when the new phase is good and everyone
else sees only interference, keeps the outline. -/
theorem Outline.Holds.update (hvalid : o.Valid clients E env)
    {c : Config I σ ι Memory Job Answer} {i : ι} {t : σ} {phase : Phase I Memory Job Answer}
    (hholds : o.Holds E c) (hinv : o.inv t) (hrely : ∀ j, i ≠ j → o.rely j c.state t)
    (hphase : o.PhaseHolds E i t phase) :
    o.Holds E ⟨t, Function.update c.phase i phase⟩ := by
  refine ⟨hinv, fun j => ?_⟩
  by_cases hij : j = i
  · subst hij
    simpa using hphase
  · have hother := (hholds.2 j).stable hvalid (hrely j (Ne.symm hij))
    simpa [Function.update_of_ne hij] using hother

/-- One step of any client keeps the outline. -/
theorem Step.holds (hvalid : o.Valid clients E env) {c d : Config I σ ι Memory Job Answer}
    (hstep : clients.Step E env c d) (hholds : o.Holds E c) : o.Holds E d := by
  cases hstep with
  | start i memory job hphase hready =>
      have hknows := hholds.2 i
      rw [hphase] at hknows
      exact hholds.update hvalid hholds.1 (fun j _ => hvalid.rely_refl j c.state)
        (hvalid.body_safe i memory job c.state hready hknows hholds.1)
  | call i memory job op next reply t hphase heffect =>
      have hsafe := hholds.2 i
      rw [hphase] at hsafe
      obtain ⟨hguar, hnext⟩ :=
        hsafe c.state (hvalid.rely_refl i c.state) hholds.1 reply t heffect
      exact hholds.update hvalid (hvalid.guar_inv i c.state t hholds.1 hguar)
        (fun j hij => hvalid.guar_rely i j c.state t hij hholds.1 hguar) hnext
  | finish i memory job answer hphase =>
      have hsafe := hholds.2 i
      rw [hphase] at hsafe
      have hpost := hsafe c.state (hvalid.rely_refl i c.state) hholds.1
      exact hholds.update hvalid hholds.1 (fun j _ => hvalid.rely_refl j c.state)
        (hvalid.resume_knows i memory job answer c.state hholds.1 hpost)
  | outside t henv =>
      exact ⟨hvalid.env_inv c.state t hholds.1 henv, fun i =>
        (hholds.2 i).stable hvalid (hvalid.env_rely i c.state t hholds.1 henv)⟩

/-- Every reachable configuration satisfies the outline. -/
theorem Steps.holds (hvalid : o.Valid clients E env) {c d : Config I σ ι Memory Job Answer}
    (hsteps : clients.Steps E env c d) (hholds : o.Holds E c) : o.Holds E d := by
  induction hsteps with
  | refl => exact hholds
  | tail _ hstep ih => exact hstep.holds hvalid ih

omit [DecidableEq ι] in
/-- A client whose job has its answer has established what the outline says. -/
theorem Outline.Holds.post (hvalid : o.Valid clients E env)
    {c : Config I σ ι Memory Job Answer} (hholds : o.Holds E c) {i : ι} {memory : Memory}
    {job : Job} {answer : Answer} (hphase : c.phase i = .busy memory job (.done answer)) :
    o.post i memory job answer c.state := by
  have hsafe := hholds.2 i
  rw [hphase] at hsafe
  exact hsafe c.state (hvalid.rely_refl i c.state) hholds.1

/-- A step leaves the shared state alone, or is one guaranteed by some client, or one
from outside. -/
theorem Step.state_eq_or_guar (hvalid : o.Valid clients E env)
    {c d : Config I σ ι Memory Job Answer} (hstep : clients.Step E env c d)
    (hholds : o.Holds E c) :
    d.state = c.state ∨ (∃ i, o.guar i c.state d.state) ∨ env c.state d.state := by
  cases hstep with
  | start i memory job hphase hready => exact Or.inl rfl
  | finish i memory job answer hphase => exact Or.inl rfl
  | call i memory job op next reply t hphase heffect =>
      have hsafe := hholds.2 i
      rw [hphase] at hsafe
      exact Or.inr (Or.inl ⟨i,
        (hsafe c.state (hvalid.rely_refl i c.state) hholds.1 reply t heffect).1⟩)
  | outside t henv => exact Or.inr (Or.inr henv)

/-- A preorder that contains every guarantee and what the environment does relates
the shared states of any two successive configurations of a run. -/
theorem Steps.related (hvalid : o.Valid clients E env) {R : σ → σ → Prop}
    (hrefl : ∀ s, R s s) (htrans : ∀ s t u, R s t → R t u → R s u)
    (hguar : ∀ i s t, o.inv s → o.guar i s t → R s t)
    (henv : ∀ s t, o.inv s → env s t → R s t)
    {c d : Config I σ ι Memory Job Answer} (hsteps : clients.Steps E env c d)
    (hholds : o.Holds E c) : R c.state d.state := by
  induction hsteps with
  | refl => exact hrefl c.state
  | @tail mid last hprefix hstep ih =>
      have hmid : o.Holds E mid := Steps.holds hvalid hprefix hholds
      rcases hstep.state_eq_or_guar hvalid hmid with hsame | ⟨i, hi⟩ | houtside
      · rw [hsame]
        exact ih
      · exact htrans _ _ _ ih (hguar i _ _ hmid.1 hi)
      · exact htrans _ _ _ ih (henv _ _ hmid.1 houtside)

end Clients

end Remote
