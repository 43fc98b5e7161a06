/-
# Code with a state that may throw

Code that reads and changes a state, and may throw. What was changed before an error stays
changed, also where the error is caught. The rules say what each construct leaves behind,
so that code whose tests are decided is evaluated by rewriting.
-/

/-- Code with a state in `σ` that may throw an `ε`. -/
abbrev Stateful (ε σ α : Type) : Type := ExceptT ε (StateM σ) α

namespace Stateful

variable {ε σ α β : Type}

/-- The result of code and the state it leaves. -/
def outcome (x : Stateful ε σ α) (s : σ) : Except ε α × σ := x.run.run s

variable (s : σ)

@[simp]
theorem outcome_pure (a : α) : outcome (pure a : Stateful ε σ α) s = (.ok a, s) := rfl

@[simp]
theorem outcome_get : outcome (get : Stateful ε σ σ) s = (.ok s, s) := rfl

@[simp]
theorem outcome_modify (f : σ → σ) :
    outcome (modify f : Stateful ε σ PUnit) s = (.ok ⟨⟩, f s) := rfl

@[simp]
theorem outcome_ofExcept (result : Except ε α) :
    outcome (ofExcept result : Stateful ε σ α) s = (result, s) := by
  cases result <;> rfl

/-- A composition stops at an error of its first part. -/
@[simp]
theorem outcome_bind (x : Stateful ε σ α) (f : α → Stateful ε σ β) :
    outcome (x >>= f) s =
      match outcome x s with
      | (.ok a, t) => outcome (f a) t
      | (.error e, t) => (.error e, t) := by
  show (match x.run.run s with
    | (result, t) => (ExceptT.bindCont f result).run t : Except ε β × σ) = _
  rw [outcome]
  rcases x.run.run s with ⟨result, t⟩
  cases result <;> rfl

/-- Success of a composition means success of both parts. -/
theorem outcome_bind_ok {s u : σ} {x : Stateful ε σ α} {f : α → Stateful ε σ β} {b : β} :
    outcome (x >>= f) s = (.ok b, u) ↔
      ∃ a t, outcome x s = (.ok a, t) ∧ outcome (f a) t = (.ok b, u) := by
  rw [outcome_bind]
  rcases outcome x s with ⟨_ | a, t⟩
  · simp
  · apply Iff.intro
    · intro hrest
      exact ⟨a, t, rfl, hrest⟩
    · rintro ⟨_, _, hfirst, hrest⟩
      cases hfirst
      exact hrest

/-- An error is handled in the state that was left. -/
@[simp]
theorem outcome_tryCatch (x : Stateful ε σ α) (handler : ε → Stateful ε σ α) :
    outcome (tryCatch x handler) s =
      match outcome x s with
      | (.ok a, t) => (.ok a, t)
      | (.error e, t) => outcome (handler e) t := by
  have hrun : outcome (tryCatch x handler) s =
      (match outcome x s with
        | (result, t) => StateT.run (match result with
            | .ok a => (pure (.ok a) : StateM σ (Except ε α))
            | .error e => (handler e).run) t : Except ε α × σ) := rfl
  rw [hrun]
  rcases outcome x s with ⟨result, t⟩
  cases result <;> rfl

/-! ## Parts of the state that are left alone -/

/-- Whatever comes out of it, the code leaves a part of the state as it was. -/
def Keeps {γ : Type} (part : σ → γ) (x : Stateful ε σ α) : Prop :=
  ∀ s, part (outcome x s).2 = part s

variable {γ : Type} {part : σ → γ}

theorem Keeps.pure (a : α) : Keeps part (Pure.pure a : Stateful ε σ α) := fun _ => rfl

theorem Keeps.get : Keeps part (MonadState.get : Stateful ε σ σ) := fun _ => rfl

theorem Keeps.ofExcept (result : Except ε α) :
    Keeps part (MonadExcept.ofExcept result : Stateful ε σ α) := fun s => by
  rw [outcome_ofExcept]

theorem Keeps.modify {f : σ → σ} (hf : ∀ s, part (f s) = part s) :
    Keeps part (modify f : Stateful ε σ PUnit) := hf

theorem Keeps.bind {x : Stateful ε σ α} {f : α → Stateful ε σ β} (hx : Keeps part x)
    (hf : ∀ a, Keeps part (f a)) : Keeps part (x >>= f) := by
  intro s
  have hfirst := hx s
  rw [outcome_bind]
  generalize outcome x s = result at hfirst ⊢
  rcases result with ⟨_ | a, t⟩
  · exact hfirst
  · exact (hf a t).trans hfirst

theorem Keeps.ite {c : Prop} [Decidable c] {x y : Stateful ε σ α} (hx : Keeps part x)
    (hy : Keeps part y) : Keeps part (if c then x else y) := by
  split
  · exact hx
  · exact hy

end Stateful
