/-
# Lists follow the last request

A list page is up to date if it shows the rows of what it keeps, arranged as the last
request said. The page of artifacts is, whenever a call resolves. The page of executions
arranges its rows while it has no executions yet; from then on it goes on showing what it
showed, which is right for requests that filter and sort as before.
-/

import KfMetadata.Frontend.ResourceLists
import Mathlib.Data.List.Sort

namespace KfMetadata.Frontend

open Mlmd

variable (host : Host) (lib : ClientLibrary)

/-! ## Artifacts -/

namespace ArtifactList

/-- The page shows what a request asks for. -/
def Follows (page : ArtifactList) (request : ListRequest) : Prop :=
  arranged host lib page request = .ok ⟨page.rows, page.expandedRows⟩

variable {host lib}

/-- A call that resolves has arranged the rows. -/
theorem reload_follows {page page' : ArtifactList} {call : ArtifactCall} {token : String}
    (hresolved : (reload host lib call).outcome page = (.ok token, page')) :
    Follows host lib page' call.request := by
  obtain ⟨_, fetched, -, hresolved⟩ := Stateful.outcome_bind_ok.mp hresolved
  obtain ⟨rows, grouped, hrows, hresolved⟩ := Stateful.outcome_bind_ok.mp hresolved
  simp only [getRowsFromArtifacts, Stateful.outcome_bind, Stateful.outcome_get,
    Stateful.outcome_ofExcept, Stateful.outcome_modify, Stateful.outcome_pure] at hrows hresolved
  cases hshown : arranged host lib fetched call.request with
  | error err =>
      simp only [hshown] at hrows
      cases hrows
  | ok shown =>
      simp only [hshown] at hrows
      cases hrows
      cases hresolved
      exact hshown

end ArtifactList

/-! ## Executions -/

namespace ExecutionList

/-- The page shows what a request asks for. -/
def Follows (page : ExecutionList) (request : ListRequest) : Prop :=
  getRowsFromExecutions host lib page request page.executions = .ok ⟨page.rows, page.expandedRows⟩

instance (page : ExecutionList) (request : ListRequest) :
    Decidable (Follows host lib page request) :=
  inferInstanceAs (Decidable (_ = _))

variable {host lib} {page : ExecutionList} {call : ExecutionCall} {types : List TypeRecord}
  {executions : List Execution}

/-- The types are fetched if there are none. -/
theorem outcome_fetchTypes (page : ExecutionList) (htypes : call.typesResponse = .ok types) :
    (fetchTypes call).outcome page =
      (.ok (), if page.executionTypesMap.isEmpty then
        { page with executionTypesMap := typesById types } else page) := by
  cases hcached : page.executionTypesMap.isEmpty <;>
    simp [fetchTypes, getExecutionTypes, htypes, hcached]

/-- The executions are arranged when they have been fetched. -/
theorem outcome_fetchExecutions (hresponse : call.response = .ok executions)
    (hempty : page.executions = []) {shown : CollapsedAndExpandedRows}
    (hshown : getRowsFromExecutions host lib page call.request executions = .ok shown) :
    (fetchExecutions host lib call).outcome page =
      (.ok (), { page with
        executions := executions
        rows := shown.collapsedRows
        expandedRows := shown.expandedRows }) := by
  have hshown' : getRowsFromExecutions host lib { page with executions := executions }
      call.request executions = .ok shown := hshown
  simp [fetchExecutions, getExecutions, hempty, hresponse, hshown']

theorem outcome_fetchExecutions_of_kept (hkept : page.executions ≠ []) :
    (fetchExecutions host lib call).outcome page = (.ok (), page) := by
  simp [fetchExecutions, hkept]

/-- A call whose steps do not throw resolves with the state they leave. -/
theorem outcome_reload {fetched shown : ExecutionList}
    (htypes : (fetchTypes call).outcome page = (.ok (), fetched))
    (hexecutions : (fetchExecutions host lib call).outcome fetched = (.ok (), shown)) :
    (reload host lib call).outcome page = (.ok "", shown) := by
  simp only [reload, Stateful.outcome_bind, Stateful.outcome_tryCatch, Stateful.outcome_pure,
    htypes, hexecutions]

/-- What a call has to meet for the page to follow its request. The first calls fetch and
arrange the executions; the later ones have to ask for what is shown, while there is no
news of the types. -/
def Kept (last : Option ListRequest) (page : ExecutionList) (call : ExecutionCall) : Prop :=
  if page.executions = [] then call.response = .ok [] ∨ Decodable call.request.filter
  else (page.executionTypesMap.isEmpty = false ∨ call.typesResponse = .ok []) ∧
    ∃ request ∈ last, SameRows request call.request

/-- The fetches of a call succeed. -/
def Fetched (call : ExecutionCall) : Prop :=
  (∃ types, call.typesResponse = .ok types) ∧ ∃ executions, call.response = .ok executions

/-- A call that finds no executions follows its request. -/
theorem reload_of_empty (hfetched : Fetched call) (hempty : page.executions = [])
    (hdecodable : call.response = .ok [] ∨ Decodable call.request.filter) :
    ∃ shown, (reload host lib call).outcome page = (.ok "", shown) ∧
      Follows host lib shown call.request := by
  obtain ⟨⟨types, htypes⟩, executions, hresponse⟩ := hfetched
  have hfetchTypes := outcome_fetchTypes page htypes
  generalize hpage : (if page.executionTypesMap.isEmpty then
    { page with executionTypesMap := typesById types } else page) = fetched at hfetchTypes
  have hempty' : fetched.executions = [] := by
    rw [← hpage]
    split <;> exact hempty
  obtain ⟨shown, hshown⟩ : ∃ shown,
      getRowsFromExecutions host lib fetched call.request executions = .ok shown := by
    refine arrangeRows_ok host (hdecodable.imp_left fun hnone => ?_) columns
    obtain rfl : executions = [] := Except.ok.inj (hresponse.symm.trans hnone)
    rfl
  exact ⟨_, outcome_reload hfetchTypes (outcome_fetchExecutions hresponse hempty' hshown), hshown⟩

/-- A call that finds executions leaves the page alone, if there is no news of the types. -/
theorem reload_of_kept (hkept : page.executions ≠ [])
    (htypes : page.executionTypesMap.isEmpty = false ∨ call.typesResponse = .ok []) :
    (reload host lib call).outcome page = (.ok "", page) := by
  refine outcome_reload ?_ (outcome_fetchExecutions_of_kept hkept)
  rcases htypes with hcached | hnone
  · simp [fetchTypes, hcached]
  · rw [outcome_fetchTypes page hnone]
    split
    · rename_i hcached
      show (_, { page with executionTypesMap := .empty }) = _
      rw [← OrderedMap.eq_empty_of_isEmpty hcached]
    · rfl

/-- A call that meets the condition follows its request, from a page that followed the
one before. -/
theorem reload_follows {last : Option ListRequest}
    (hlast : page.executions = [] ∨ ∃ request ∈ last, Follows host lib page request)
    (hfetched : Fetched call) (hkept : Kept last page call) :
    Follows host lib ((reload host lib call).outcome page).2 call.request := by
  by_cases hempty : page.executions = []
  · rw [Kept, if_pos hempty] at hkept
    obtain ⟨shown, hreload, hfollows⟩ := reload_of_empty hfetched hempty hkept
    rw [hreload]
    exact hfollows
  · rw [Kept, if_neg hempty] at hkept
    obtain ⟨htypes, asked, hasked, hsame⟩ := hkept
    obtain ⟨request, hrequest, hfollows⟩ := hlast.resolve_left hempty
    obtain rfl : asked = request := Option.mem_unique hasked hrequest
    rw [reload_of_kept hempty htypes, Follows, getRowsFromExecutions,
      ← arrangeRows_congr host hsame]
    exact hfollows

/-- Every call of a sequence meets the condition. -/
def AllKept (host : Host) (lib : ClientLibrary) :
    Option ListRequest → ExecutionList → List ExecutionCall → Prop
  | _, _, [] => True
  | last, page, call :: calls =>
      Kept last page call ∧
        AllKept host lib (some call.request) ((reload host lib call).outcome page).2 calls

/-- So the page follows the last request after each call. -/
theorem run_follows {calls : List ExecutionCall} {last : Option ListRequest}
    (hlast : page.executions = [] ∨ ∃ request ∈ last, Follows host lib page request)
    (hfetched : ∀ call ∈ calls, Fetched call) (hkept : AllKept host lib last page calls) {n : Nat}
    (hcall : calls[n]? = some call) :
    Follows host lib (run host lib page (calls.take (n + 1))) call.request := by
  induction calls generalizing page last n with
  | nil => cases hcall
  | cons first calls ih =>
      have hfirst := reload_follows hlast (hfetched first List.mem_cons_self) hkept.1
      cases n with
      | zero =>
          obtain rfl : first = call := Option.some.inj hcall
          exact hfirst
      | succ n =>
          exact ih (Or.inr ⟨_, rfl, hfirst⟩)
            (fun call hmem => hfetched call (List.mem_cons_of_mem first hmem)) hkept.2 hcall

end ExecutionList

/-! ## Both lists -/

/-- **Lists follow the last request.** The page of artifacts does after every call that
resolves. The page of executions does after each call, as long as every call finds no
executions, or asks for the same rows as the call before. -/
theorem lists_follow_last_request :
    (∀ (calls : List ArtifactCall) (n : Nat) (call : ArtifactCall) (token : String),
      calls[n]? = some call →
      ((ArtifactList.reload host lib call).outcome
        (ArtifactList.run host lib .init (calls.take n))).1 = .ok token →
      ArtifactList.Follows host lib (ArtifactList.run host lib .init (calls.take (n + 1)))
        call.request) ∧
    ∀ (calls : List ExecutionCall) (n : Nat) (call : ExecutionCall),
      (∀ call ∈ calls, ExecutionList.Fetched call) →
      ExecutionList.AllKept host lib none .init calls → calls[n]? = some call →
      ExecutionList.Follows host lib (ExecutionList.run host lib .init (calls.take (n + 1)))
        call.request := by
  refine ⟨fun calls n call token hcall hresolved => ?_, fun calls n call hfetched hkept hcall =>
    ExecutionList.run_follows (Or.inl rfl) hfetched hkept hcall⟩
  rw [List.take_add_one, hcall, Option.toList_some, ArtifactList.run, List.foldl_append]
  exact ArtifactList.reload_follows (Prod.ext hresolved rfl)

/-! ## Two requests -/

/-- A browser for rows without texts to filter by or to convert. -/
def plainHost : Host where
  numberToString
    | .finite value => toString value.num
    | _ => ""
  stringToNumber _ := .nan
  toLowerCase := String.toLower
  jsonParse _ := none
  sort compare rows := rows.insertionSort fun r₁ r₂ => compare r₁ r₂ ≤ 0
  sort_perm _ rows := List.perm_insertionSort _ rows
  malformedMessage := "URI malformed"

/-- The client library, for resources without properties and types without names. -/
def plainLibrary : ClientLibrary where
  getResourceProperty _ _ _ := .null
  getTypeName _ _ := ""

/-- A call that sorts by id, with two executions in the backend. -/
def sortById (orderAscending : Bool) : ExecutionCall where
  request := ⟨"", orderAscending, 10, some "", if orderAscending then "id" else "id desc"⟩
  typesResponse := .ok [⟨some 1, some "trainer", ∅⟩]
  response := .ok [⟨some 1, some 1, ∅, ∅, ()⟩, ⟨some 2, some 1, ∅, ∅, ()⟩]

theorem lists_follow_last_request_sortedTwice :
    ExecutionList.Follows plainHost plainLibrary
      (ExecutionList.run plainHost plainLibrary .init [sortById true, sortById true])
      (sortById true).request := by
  refine (lists_follow_last_request plainHost plainLibrary).2 [sortById true, sortById true] 1 _
    (fun call hcall => ?_) ?_ rfl
  · obtain rfl : call = sortById true := by simpa using hcall
    exact ⟨⟨_, rfl⟩, _, rfl⟩
  · have hshown : ((ExecutionList.reload plainHost plainLibrary (sortById true)).outcome
        ExecutionList.init).2.executions ≠ [] := by decide +kernel
    refine ⟨Or.inr (Or.inl rfl), ?_, trivial⟩
    rw [ExecutionList.Kept, if_neg hshown]
    exact ⟨Or.inl (by decide +kernel), _, rfl, rfl, rfl, rfl⟩

/-- Once the executions are there, a request for the opposite order changes nothing. -/
theorem executionList_not_resorted :
    ¬ ∀ (host : Host) (lib : ClientLibrary) (calls : List ExecutionCall) (n : Nat)
      (call : ExecutionCall), (∀ call ∈ calls, ExecutionList.Fetched call) →
      calls[n]? = some call →
      ExecutionList.Follows host lib (ExecutionList.run host lib .init (calls.take (n + 1)))
        call.request := by
  intro hclaim
  have hfollows := hclaim plainHost plainLibrary [sortById true, sortById false] 1 _
    (fun call hcall => by
      rcases List.mem_pair.mp hcall with rfl | rfl <;> exact ⟨⟨_, rfl⟩, _, rfl⟩) rfl
  exact absurd hfollows (by decide +kernel)

end KfMetadata.Frontend
