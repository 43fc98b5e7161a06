/-
# Clients of the store

A client is a program of store calls that stops at the first error. Its errors
are plain texts, such as those of the store, numerals that do not parse, and
formats with their arguments, possibly around the error that caused them; the
texts are not rendered. The lemmas read a run of a client off the calls that it
makes.
-/

import KfMetadata.Library.ConcurrentClients
import KfMetadata.Library.Text
import KfMetadata.Mlmd.Api

namespace KfMetadata.Mlmd

open Remote Remote.Program

/-- An argument of a formatted error. -/
inductive Arg
  | text (text : String)
  | ids (ids : List Int)
  | items (k : Kind) (items : List (Item k))

/-- An error: a plain text, a number that does not parse, or a format with its
arguments, possibly around the error that caused it. -/
inductive GoError
  | text (message : String)
  | number (numeral : String) (reason : Text.NumeralError)
  | errorf (format : String) (args : List Arg)
  | wrapf (format : String) (args : List Arg) (cause : GoError)

/-- A handler: store calls that end in a result or an error. -/
abbrev Handler (α : Type) : Type := ExceptT GoError (Program api) α

/-- Call the store, and stop with what `raise` makes of its error. -/
def callOr {ε : Type} (raise : String → ε) (op : Call) : ExceptT ε (Program api) op.Result :=
  ExceptT.mk (call op >>= fun reply => pure (reply.mapError raise))

/-- Call the store and stop at its error. -/
def storeCall (op : Call) : Handler op.Result := callOr .text op

/-- Report an error of `x` inside a further message. -/
def wrapError {α : Type} (format : String) (args : List Arg) (x : Handler α) : Handler α :=
  ExceptT.mk (x.run >>= fun
    | .ok result => pure (.ok result)
    | .error cause => pure (.error (.wrapf format args cause)))

/-- Continue with a value that may be an error. -/
def ofResult {ε α : Type} (result : Except ε α) : ExceptT ε (Program api) α :=
  ExceptT.mk (pure result)

/-! ## Runs of the pieces -/

section Any

variable {σ ε : Type} {E : Effect api σ} {s t : σ} {raise : String → ε}

theorem runs_callOr_ok (op : Call) {result : op.Result} :
    (callOr raise op).run.Runs E s (.ok result) t ↔ E op s (.ok result) t := by
  rw [callOr, ExceptT.run_mk, runs_bind]
  apply Iff.intro
  · rintro ⟨reply, u, hcall, hrest⟩
    obtain ⟨hreply, rfl⟩ := runs_pure.mp hrest
    cases reply with
    | error message => cases hreply
    | ok value =>
        cases hreply
        exact runs_call.mp hcall
  · intro hcall
    exact ⟨.ok result, t, runs_call.mpr hcall, runs_pure.mpr ⟨rfl, rfl⟩⟩

theorem runs_callOr_error (op : Call) {e : ε} :
    (callOr raise op).run.Runs E s (.error e) t ↔
      ∃ message, e = raise message ∧ E op s (.error message) t := by
  rw [callOr, ExceptT.run_mk, runs_bind]
  apply Iff.intro
  · rintro ⟨reply, u, hcall, hrest⟩
    obtain ⟨hreply, rfl⟩ := runs_pure.mp hrest
    cases reply with
    | ok value => cases hreply
    | error message =>
        cases hreply
        exact ⟨message, rfl, runs_call.mp hcall⟩
  · rintro ⟨message, rfl, hcall⟩
    exact ⟨.error message, t, runs_call.mpr hcall, runs_pure.mpr ⟨rfl, rfl⟩⟩

@[simp]
theorem runs_ofResult {α : Type} {result reply : Except ε α} :
    (ofResult result).run.Runs E s reply t ↔ result = reply ∧ s = t := runs_pure

theorem runs_wrapError_ok {α : Type} {format : String} {args : List Arg} {x : Handler α}
    {value : α} :
    (wrapError format args x).run.Runs E s (.ok value) t ↔ x.run.Runs E s (.ok value) t := by
  rw [wrapError, ExceptT.run_mk, runs_bind]
  apply Iff.intro
  · rintro ⟨reply, u, hx, hreply⟩
    cases reply with
    | error e => cases (runs_pure.mp hreply).1
    | ok value' =>
        obtain ⟨hvalue, rfl⟩ := runs_pure.mp hreply
        cases hvalue
        exact hx
  · intro hx
    exact ⟨.ok value, t, hx, runs_pure.mpr ⟨rfl, rfl⟩⟩

theorem runs_wrapError_error {α : Type} {format : String} {args : List Arg} {x : Handler α}
    {e : GoError} :
    (wrapError format args x).run.Runs E s (.error e) t ↔
      ∃ cause, e = .wrapf format args cause ∧ x.run.Runs E s (.error cause) t := by
  rw [wrapError, ExceptT.run_mk, runs_bind]
  apply Iff.intro
  · rintro ⟨reply, u, hx, hreply⟩
    cases reply with
    | ok value => cases (runs_pure.mp hreply).1
    | error cause =>
        obtain ⟨hcause, rfl⟩ := runs_pure.mp hreply
        cases hcause
        exact ⟨cause, rfl, hx⟩
  · rintro ⟨cause, rfl, hx⟩
    exact ⟨.error cause, t, hx, runs_pure.mpr ⟨rfl, rfl⟩⟩

end Any

variable {E : Effect api Store} {s t : Store}

theorem runs_storeCall_ok (op : Call) {result : op.Result} :
    (storeCall op).run.Runs E s (.ok result) t ↔ E op s (.ok result) t := runs_callOr_ok op

theorem runs_storeCall_error (op : Call) {e : GoError} :
    (storeCall op).run.Runs E s (.error e) t ↔
      ∃ message, e = .text message ∧ E op s (.error message) t := runs_callOr_error op

/-! ## Safety of the pieces -/

section Safety

variable {inv : Store → Prop} {rely guar : Store → Store → Prop}

theorem safe_ofResult {α : Type} {result : Except GoError α} {post : α → Store → Prop}
    (hpost : ∀ a t, result = .ok a → rely s t → inv t → post a t) :
    SafeOk E inv rely guar post (ofResult result) s :=
  fun t hrely hinv a ha => hpost a t ha hrely hinv

/-- One call of the store, from any state that interference may have led to. -/
theorem safe_storeCall {op : Call} {post : op.Result → Store → Prop}
    (hcall : ∀ t, rely s t → inv t → ∀ reply u, E op t reply u →
      guar t u ∧ ∀ result, reply = .ok result → ∀ v, rely u v → inv v → post result v) :
    SafeOk E inv rely guar post (storeCall op) s := by
  intro t hrely hinv reply u heffect
  obtain ⟨hguar, hpost⟩ := hcall t hrely hinv reply u heffect
  refine ⟨hguar, fun v hrely' hinv' a ha => ?_⟩
  cases reply with
  | error message => cases ha
  | ok result =>
      cases ha
      exact hpost _ rfl v hrely' hinv'

theorem safe_wrapError {α : Type} {format : String} {args : List Arg} {x : Handler α}
    {post : α → Store → Prop} (hrefl : ∀ s, rely s s)
    (htrans : ∀ s t u, rely s t → rely t u → rely s u)
    (hx : SafeOk E inv rely guar post x s) :
    SafeOk E inv rely guar post (wrapError format args x) s := by
  apply Safe.bind _ hrefl htrans hx
  intro result t _ hpost
  cases result with
  | error e =>
      intro u _ _ a ha
      cases ha
  | ok value =>
      intro u hrely hinv a ha
      cases ha
      exact hpost u hrely hinv value rfl

end Safety

/-! ## Calls of the pieces -/

variable {allowed : Call → Prop}

theorem uses_callOr {ε : Type} {raise : String → ε} {op : Call} (hallowed : allowed op) :
    (callOr raise op).run.Uses (I := api) allowed :=
  Uses.bind (uses_call.mpr hallowed) fun _ => uses_pure _

theorem uses_storeCall {op : Call} (hallowed : allowed op) :
    (storeCall op).run.Uses (I := api) allowed := uses_callOr hallowed

theorem uses_wrapError {α : Type} {format : String} {args : List Arg} {x : Handler α}
    (hx : x.run.Uses (I := api) allowed) :
    (wrapError format args x).run.Uses (I := api) allowed := by
  apply Uses.bind hx
  intro reply
  cases reply with
  | ok value => exact uses_pure _
  | error e => exact uses_pure _

end KfMetadata.Mlmd
