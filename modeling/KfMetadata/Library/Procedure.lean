/-
# Programs with a variable

A procedure is a program that may raise an exception and that reads and assigns one
variable of its caller. An assignment stands when an exception is raised after it.
-/

import KfMetadata.Library.ConcurrentClients

namespace Remote

variable {I : Interface} {σ L ε α β : Type}

/-- A program with a variable in `L`, which may raise an exception in `ε`. -/
abbrev Procedure (I : Interface) (L ε α : Type) : Type := ExceptT ε (StateT L (Program I)) α

namespace Procedure

/-- A program that leaves the variable alone. -/
def lift (x : ExceptT ε (Program I) α) : Procedure I L ε α :=
  ExceptT.mk fun l => x.run >>= fun result => pure (result, l)

/-- The procedure may end with `r` and the variable at `m`, in state `t`. -/
def Runs (E : Effect I σ) (x : Procedure I L ε α) (s : σ) (l : L) (r : Except ε α) (t : σ)
    (m : L) : Prop := Program.Runs E (x.run.run l) s (r, m) t

variable {E : Effect I σ} {s t : σ} {l m : L}

theorem runs_get {r : Except ε L} :
    (get : Procedure I L ε L).Runs E s l r t m ↔ .ok l = r ∧ l = m ∧ s = t := by
  rw [Runs, ← and_assoc, ← Prod.mk.injEq]
  exact Program.runs_pure

theorem runs_set {value : L} {r : Except ε PUnit} :
    (set value : Procedure I L ε PUnit).Runs E s l r t m ↔ .ok ⟨⟩ = r ∧ value = m ∧ s = t := by
  rw [Runs, ← and_assoc, ← Prod.mk.injEq]
  exact Program.runs_pure

theorem runs_lift {x : ExceptT ε (Program I) α} {r : Except ε α} :
    (lift x : Procedure I L ε α).Runs E s l r t m ↔ x.run.Runs E s r t ∧ l = m := by
  rw [Runs, lift, ExceptT.run_mk]
  show Program.Runs E (x.run >>= fun result => pure (result, l)) s (r, m) t ↔ _
  rw [Program.runs_bind]
  apply Iff.intro
  · rintro ⟨result, u, hx, hrest⟩
    obtain ⟨hpair, rfl⟩ := Program.runs_pure.mp hrest
    obtain ⟨rfl, rfl⟩ := Prod.mk.inj hpair
    exact ⟨hx, rfl⟩
  · rintro ⟨hx, rfl⟩
    exact ⟨r, t, hx, Program.runs_pure.mpr ⟨rfl, rfl⟩⟩

/-- A composition stops at an exception of its first part, or runs both. -/
theorem runs_bind {x : Procedure I L ε α} {f : α → Procedure I L ε β} {r : Except ε β} :
    (x >>= f).Runs E s l r t m ↔
      (∃ e, r = .error e ∧ x.Runs E s l (.error e) t m) ∨
        ∃ a u k, x.Runs E s l (.ok a) u k ∧ (f a).Runs E u k r t m := by
  rw [Runs, ExceptT.run_bind, StateT.run_bind, Program.runs_bind]
  apply Iff.intro
  · rintro ⟨⟨result, k⟩, u, hfirst, hrest⟩
    cases result with
    | ok a => exact Or.inr ⟨a, u, k, hfirst, hrest⟩
    | error e =>
        obtain ⟨hpair, rfl⟩ := Program.runs_pure.mp hrest
        obtain ⟨hresult, rfl⟩ := Prod.mk.inj hpair
        exact Or.inl ⟨e, hresult.symm, hfirst⟩
  · rintro (⟨e, rfl, hfirst⟩ | ⟨a, u, k, hfirst, hrest⟩)
    · exact ⟨(.error e, m), t, hfirst, Program.runs_pure.mpr ⟨rfl, rfl⟩⟩
    · exact ⟨(.ok a, k), u, hfirst, hrest⟩

/-- Success of a composition means success of both parts. -/
theorem runs_bind_ok {x : Procedure I L ε α} {f : α → Procedure I L ε β} {b : β} :
    (x >>= f).Runs E s l (.ok b) t m ↔
      ∃ a u k, x.Runs E s l (.ok a) u k ∧ (f a).Runs E u k (.ok b) t m := by
  rw [runs_bind]
  apply Iff.intro
  · rintro (⟨e, herror, -⟩ | hok)
    · cases herror
    · exact hok
  · exact Or.inr

/-- The variable is read without a call. -/
theorem runs_get_bind {f : L → Procedure I L ε β} {r : Except ε β} :
    (get >>= f).Runs E s l r t m ↔ (f l).Runs E s l r t m := by
  rw [runs_bind]
  apply Iff.intro
  · rintro (⟨e, -, hget⟩ | ⟨value, u, k, hget, hrest⟩)
    · cases (runs_get.mp hget).1
    · obtain ⟨hvalue, rfl, rfl⟩ := runs_get.mp hget
      cases hvalue
      exact hrest
  · intro hrest
    exact Or.inr ⟨l, s, l, runs_get.mpr ⟨rfl, rfl, rfl⟩, hrest⟩

/-- The variable is assigned without a call. -/
theorem runs_set_bind {value : L} {f : PUnit → Procedure I L ε β} {r : Except ε β} :
    (set value >>= f).Runs E s l r t m ↔ (f ⟨⟩).Runs E s value r t m := by
  rw [runs_bind]
  apply Iff.intro
  · rintro (⟨e, -, hset⟩ | ⟨_, u, k, hset, hrest⟩)
    · cases (runs_set.mp hset).1
    · obtain ⟨-, rfl, rfl⟩ := runs_set.mp hset
      exact hrest
  · intro hrest
    exact Or.inr ⟨⟨⟩, s, value, runs_set.mpr ⟨rfl, rfl, rfl⟩, hrest⟩

/-- A part without the variable succeeds, and the rest goes on from its value. -/
theorem runs_lift_bind_ok {x : ExceptT ε (Program I) α} {f : α → Procedure I L ε β} {b : β} :
    (lift x >>= f).Runs E s l (.ok b) t m ↔
      ∃ a u, x.run.Runs E s (.ok a) u ∧ (f a).Runs E u l (.ok b) t m := by
  rw [runs_bind_ok]
  apply Iff.intro
  · rintro ⟨a, u, k, hlift, hrest⟩
    obtain ⟨hx, rfl⟩ := runs_lift.mp hlift
    exact ⟨a, u, hx, hrest⟩
  · rintro ⟨a, u, hx, hrest⟩
    exact ⟨a, u, l, runs_lift.mpr ⟨hx, rfl⟩, hrest⟩

/-- A part that raises nothing is run to its end. -/
theorem runs_lift_bind_of_returns {x : ExceptT ε (Program I) α} {f : α → Procedure I L ε β}
    {r : Except ε β} (hreturns : ∀ e u, ¬ x.run.Runs E s (.error e) u)
    (hrun : (lift x >>= f).Runs E s l r t m) :
    ∃ a u, x.run.Runs E s (.ok a) u ∧ (f a).Runs E u l r t m := by
  rcases runs_bind.mp hrun with ⟨e, -, hx⟩ | ⟨a, u, k, hx, hrest⟩
  · exact absurd (runs_lift.mp hx).1 (hreturns e t)
  · obtain ⟨hok, rfl⟩ := runs_lift.mp hx
    exact ⟨a, u, hok, hrest⟩

/-- What evaluation computes is a run. -/
theorem runs_of_run (server : Server I σ) {x : Procedure I L ε α} {s : σ} {l m : L}
    {r : Except ε α} (hresult : ((x.run.run l).run server s).1 = (r, m)) :
    x.Runs server.effect s l r ((x.run.run l).run server s).2 m :=
  Program.runs_effect_iff.mpr (Prod.ext hresult rfl)

/-! ## Which calls a procedure may issue -/

/-- Whatever the variable and the replies, only allowed calls are issued. -/
def Uses (allowed : I.Op → Prop) (x : Procedure I L ε α) : Prop :=
  ∀ l, Program.Uses allowed (x.run.run l)

variable {allowed : I.Op → Prop}

theorem Uses.bind {x : Procedure I L ε α} {f : α → Procedure I L ε β} (hfirst : x.Uses allowed)
    (hrest : ∀ a, (f a).Uses allowed) : (x >>= f).Uses allowed := by
  intro l
  rw [ExceptT.run_bind, StateT.run_bind]
  apply Program.Uses.bind (hfirst l)
  rintro ⟨result, m⟩
  cases result with
  | ok a => exact hrest a m
  | error e => exact Program.uses_pure _

/-! ## Safe procedures -/

/-- Others act by `rely` before each call and before the result is used; every call keeps
`guar`, and the result and the variable satisfy `post`, also when an exception is raised. -/
def Safe (E : Effect I σ) (inv : σ → Prop) (rely guar : σ → σ → Prop)
    (post : Except ε α → L → σ → Prop) (x : Procedure I L ε α) (s : σ) (l : L) : Prop :=
  Program.Safe E inv rely guar (fun (ending : Except ε α × L) t => post ending.1 ending.2 t)
    (x.run.run l) s

variable {inv : σ → Prop} {rely guar : σ → σ → Prop}

theorem safe_set {value : L} {post : Except ε PUnit → L → σ → Prop}
    (hpost : ∀ t, rely s t → inv t → post (.ok ⟨⟩) value t) :
    (set value : Procedure I L ε PUnit).Safe E inv rely guar post s l := hpost

/-- A part without the variable is safe for what it returns and raises. -/
theorem safe_lift {x : ExceptT ε (Program I) α} {post : Except ε α → L → σ → Prop}
    (hrefl : ∀ s, rely s s) (htrans : ∀ s t u, rely s t → rely t u → rely s u)
    (hx : x.run.Safe E inv rely guar (fun result t => post result l t) s) :
    (lift x).Safe E inv rely guar post s l := by
  rw [Safe, lift, ExceptT.run_mk]
  show Program.Safe E inv rely guar _ (x.run >>= fun result => pure (result, l)) s
  exact Program.Safe.bind _ hrefl htrans hx fun result t _ hmid => Program.Safe.pure hmid

/-- A composition is safe through what its first part establishes, and by an exception of
that part. -/
theorem safe_bind {x : Procedure I L ε α} {f : α → Procedure I L ε β}
    (mid : Except ε α → L → σ → Prop) {post : Except ε β → L → σ → Prop}
    (hrefl : ∀ s, rely s s) (htrans : ∀ s t u, rely s t → rely t u → rely s u)
    (hfirst : x.Safe E inv rely guar mid s l)
    (hrest : ∀ a m t, inv t → mid (.ok a) m t → (f a).Safe E inv rely guar post t m)
    (hraise : ∀ e m t, inv t → mid (.error e) m t → post (.error e) m t) :
    (x >>= f).Safe E inv rely guar post s l := by
  rw [Safe, ExceptT.run_bind, StateT.run_bind]
  refine Program.Safe.bind _ hrefl htrans hfirst ?_
  rintro ⟨result, m⟩ t hinv hmid
  cases result with
  | ok a => exact hrest a m t hinv (hmid t (hrefl t) hinv)
  | error e =>
      exact Program.Safe.pure fun u hrely hinv' => hraise e m u hinv' (hmid u hrely hinv')

end Procedure

end Remote
