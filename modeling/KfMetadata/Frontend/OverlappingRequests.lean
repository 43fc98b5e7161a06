/-
# Overlapping requests

A handler of the table reads the state, sends a request, and writes to the state when the
answer arrives. In the meantime the user may go on: sorting and the page size are open at
any time, and the page buttons are disabled at the ends of the list only. What a handler
then writes rests on what it has read before it waited: the page that it turns to, and the
last page as far as it was known.

Answers may arrive in any order, and the server may answer a request as it likes, also the
same one differently at another time. The filter stays as it is.
-/

import KfMetadata.Frontend.PageTokens

namespace KfMetadata.Frontend

/-! ## Handlers up to their answer -/

/-- What is left of a handler that waits, with what it has read. -/
inductive Handler
  | pageChanged (newCurrentPage maxPageIndex : Nat)
  | resetToFirstPage
  /-- Nothing is left to be done. -/
  | reload

/-- A request in flight, and the handler that waits for its answer. -/
structure Pending where
  request : ListRequest
  handler : Handler

namespace TableState

/-- The state while a request is waited for, and the request. -/
def reload (s : TableState) (load : LoadRequest) : TableState × ListRequest :=
  let request := (s.request s.tokenList[s.currentPage]?).assign load
  ({ s.accept request with isBusy := true }, request.suffixed)

def pageChanged (s : TableState) (offset : Int) : TableState × Option Pending :=
  let newCurrentPage := min s.maxPageIndex (max 0 (s.currentPage + offset)).toNat
  let (s', request) := s.reload { pageToken := some s.tokenList[newCurrentPage]? }
  (s', some ⟨request, .pageChanged newCurrentPage s.maxPageIndex⟩)

def requestSort (s : TableState) (sortBy : Option String) : TableState × Option Pending :=
  match sortBy with
  | none => (s, none)
  | some key =>
      if key = "" then (s, none)
      else
        let sortOrder :=
          if s.sortBy = key then
            if s.sortOrder = .asc then SortOrder.desc else SortOrder.asc
          else SortOrder.asc
        let sorted := { s with sortOrder := sortOrder, sortBy := key }
        let (s', request) := sorted.reload
          { pageToken := some (some "")
            orderAscending := some (sortOrder = .asc)
            sortBy := some key }
        (s', some ⟨request, .resetToFirstPage⟩)

def requestRowsPerPage (s : TableState) (pageSize : Nat) : TableState × Option Pending :=
  let (s', request) := s.reload { pageSize := some pageSize, pageToken := some (some "") }
  (s', some ⟨request, .resetToFirstPage⟩)

def handleFilterChange (s : TableState) (value : String) : TableState × Option Pending :=
  let (s', request) := { s with filterString := value }.reload { filter := some value }
  (s', some ⟨request, .resetToFirstPage⟩)

/-- One action up to its answer. -/
def perform (s : TableState) : TableAction → TableState × Option Pending
  | .firstLoad => s.pageChanged 0
  | .nextPage => s.pageChanged 1
  | .previousPage => s.pageChanged (-1)
  | .sortClick sortKey => s.requestSort sortKey
  | .pageSizeChange pageSize => s.requestRowsPerPage pageSize
  | .filterChange value => s.handleFilterChange value
  | .reload => let (s', request) := s.reload {}; (s', some ⟨request, .reload⟩)

/-- The button for an action is there and enabled. The first load is made when the table
appears, the filter and reloading are left alone. -/
def Enabled (s : TableState) : TableAction → Prop
  | .nextPage => s.currentPage < s.maxPageIndex
  | .previousPage => s.currentPage ≠ 0
  | .sortClick _ => True
  | .pageSizeChange _ => True
  | .firstLoad => False
  | .filterChange _ => False
  | .reload => False

instance (s : TableState) : (action : TableAction) → Decidable (s.Enabled action)
  | .nextPage => inferInstanceAs (Decidable (_ < _))
  | .previousPage => inferInstanceAs (Decidable (_ ≠ _))
  | .sortClick _ => isTrue trivial
  | .pageSizeChange _ => isTrue trivial
  | .firstLoad => isFalse id
  | .filterChange _ => isFalse id
  | .reload => isFalse id

end TableState

/-- The rest of a handler, when its answer arrives. The tokens are those that the table has
then, the page and the last page those that the handler has read before. -/
def Pending.finish (p : Pending) (s : TableState) (newPageToken : String) : TableState :=
  let s := { s with isBusy := false }
  match p.handler with
  | .pageChanged newCurrentPage maxPageIndex =>
      if newPageToken ≠ "" then
        { s with
          currentPage := newCurrentPage
          maxPageIndex := maxPageIndex
          tokenList :=
            if newCurrentPage + 1 = s.tokenList.length then s.tokenList ++ [newPageToken]
            else s.tokenList }
      else { s with currentPage := newCurrentPage, maxPageIndex := newCurrentPage }
  | .resetToFirstPage => (CustomTable.resetToFirstPage ⟨s, []⟩ newPageToken).state
  | .reload => s

/-- What is left of turning the page, in a table that records its requests. -/
theorem finish_pageChanged (s : TableState) (sent : List ListRequest) (request : ListRequest)
    (page maxPageIndex : Nat) (newPageToken : String) :
    (if newPageToken ≠ "" then
      ⟨{ s with
          isBusy := false
          currentPage := page
          maxPageIndex := maxPageIndex
          tokenList :=
            if page + 1 = s.tokenList.length then s.tokenList ++ [newPageToken]
            else s.tokenList }, sent⟩
      else ⟨{ s with isBusy := false, currentPage := page, maxPageIndex := page }, sent⟩) =
      (⟨Pending.finish ⟨request, .pageChanged page maxPageIndex⟩ s newPageToken, sent⟩ :
        CustomTable) := by
  unfold Pending.finish
  by_cases hmore : newPageToken ≠ ""
  · rw [if_pos hmore]
    simp only [if_pos hmore]
  · rw [if_neg hmore]
    simp only [if_neg hmore]

/-- An action whose answer arrives before anything else happens. -/
theorem CustomTable.perform_eq (server : ListRequest → String) (t : CustomTable)
    (action : TableAction) :
    t.perform server action =
      match t.state.perform action with
      | (s, none) => ⟨s, t.sent⟩
      | (s, some p) => ⟨p.finish s (server p.request), t.sent ++ [p.request]⟩ := by
  cases action with
  | firstLoad => exact finish_pageChanged (t.state.pageChanged 0).1 _ _ _ _ _
  | nextPage => exact finish_pageChanged (t.state.pageChanged 1).1 _ _ _ _ _
  | previousPage => exact finish_pageChanged (t.state.pageChanged (-1)).1 _ _ _ _ _
  | sortClick sortKey =>
      cases sortKey with
      | none => rfl
      | some key =>
          simp only [CustomTable.perform, TableState.perform, CustomTable.requestSort,
            TableState.requestSort]
          split
          · rfl
          · rfl
  | pageSizeChange pageSize => rfl
  | filterChange value => rfl
  | reload => rfl

/-! ## Tables in use -/

/-- A table, the requests in flight in the order in which they were sent, and what has been
answered so far. -/
structure LiveTable where
  state : TableState
  pending : List Pending
  answered : List (ListRequest × String)

/-- What happens to a table: the user acts, or the answer to one of the requests in flight
arrives. -/
inductive TableEvent
  | action (action : TableAction)
  | answer (index : Nat) (newPageToken : String)

namespace LiveTable

def act (t : LiveTable) (action : TableAction) : LiveTable where
  state := (t.state.perform action).1
  pending := t.pending ++ (t.state.perform action).2.toList
  answered := t.answered

/-- A table that has just appeared, with its first load in flight. -/
def mounted (props : TableProps) : LiveTable :=
  act ⟨(CustomTable.init props).state, [], []⟩ .firstLoad

/-- An answer arrives; these are the other requests in flight. -/
def answer (t : LiveTable) (p : Pending) (others : List Pending) (newPageToken : String) :
    LiveTable where
  state := p.finish t.state newPageToken
  pending := others
  answered := t.answered ++ [(p.request, newPageToken)]

/-- One event, unless its button is disabled or there is no such request. -/
def step (t : LiveTable) : TableEvent → Option LiveTable
  | .action action => if t.state.Enabled action then some (t.act action) else none
  | .answer index newPageToken =>
      t.pending[index]?.map fun p => t.answer p (t.pending.eraseIdx index) newPageToken

/-- Events one after another. -/
def run (t : LiveTable) : List TableEvent → Option LiveTable
  | [] => some t
  | event :: events => (t.step event).bind fun u => u.run events

open CustomTable (query)

/-- The last page: the server has returned no token after it, under the present settings. -/
def LastPage (t : LiveTable) (page : Nat) : Prop :=
  ∃ token, t.state.tokenList[page]? = some token ∧ (query t.state (some token), "") ∈ t.answered

/-- The last page is unknown, or it is this one. -/
def Bound (t : LiveTable) (maxPageIndex : Nat) : Prop :=
  maxPageIndex = maxSafeInteger ∨ t.LastPage maxPageIndex

/-- The tokens and the pages of the table belong together. -/
structure Tolerant (t : LiveTable) : Prop where
  first : t.state.tokenList[0]? = some ""
  /-- Each further token was returned for the page of the one before. -/
  returned : ∀ i token next, t.state.tokenList[i]? = some token →
    t.state.tokenList[i + 1]? = some next → (query t.state (some token), next) ∈ t.answered
  inRange : t.state.currentPage < t.state.tokenList.length
  bound : t.Bound t.state.maxPageIndex

/-- What the handler has read still holds of the table, as far as it goes on to use it. -/
def UpToDate (t : LiveTable) (p : Pending) (newPageToken : String) : Prop :=
  match p.handler with
  | .pageChanged newCurrentPage maxPageIndex =>
      ∃ token, t.state.tokenList[newCurrentPage]? = some token ∧
        -- The answer is kept: as a new token, or for the fact that there is none.
        (newPageToken = "" ∨ newCurrentPage + 1 = t.state.tokenList.length →
          p.request = query t.state (some token)) ∧
        (newPageToken ≠ "" → t.Bound maxPageIndex)
  | .resetToFirstPage => p.request = query t.state (some "")
  | .reload => True

/-- Among these requests is one that starts the list anew, under the present settings. -/
def Restarting (t : LiveTable) (pending : List Pending) : Prop :=
  ∃ p ∈ pending, p.handler = .resetToFirstPage ∧ p.request = query t.state (some "")

/-- An answer is up to date, or the list is going to be started anew after it. -/
def Timely (t : LiveTable) : TableEvent → Prop
  | .action _ => True
  | .answer index newPageToken => ∀ p, t.pending[index]? = some p →
      t.UpToDate p newPageToken ∨ t.Restarting (t.pending.eraseIdx index)

/-- All answers of a run are timely. -/
def TimelyRun (t : LiveTable) : List TableEvent → Prop
  | [] => True
  | event :: events => t.Timely event ∧ ∀ u, t.step event = some u → u.TimelyRun events

/-! ## Sending -/

variable {s : TableState} {action : TableAction} {t u : LiveTable}

/-- A request that only chooses a page leaves the settings alone. -/
theorem query_reload_of_token (s : TableState) (token : Option (Option String))
    (pageToken : Option String) :
    query (s.reload { pageToken := token }).1 pageToken = query s pageToken :=
  CustomTable.query_reloaded_of_token ⟨s, []⟩ token pageToken

/-- The request that is sent asks for its token under the settings that the state then has. -/
theorem request_reload (s : TableState) (load : LoadRequest) {token : Option String}
    (htoken : load.pageToken = some token) :
    (s.reload load).2 = query (s.reload load).1 token := by
  have hload : token = ((s.request s.tokenList[s.currentPage]?).assign load).pageToken := by
    rw [ListRequest.assign, htoken]
    rfl
  rw [query, hload]
  exact congrArg ListRequest.suffixed (CustomTable.request_accept s _).symm

theorem step_action_iff :
    t.step (.action action) = some u ↔ t.state.Enabled action ∧ t.act action = u := by
  rw [step]
  split
  · rename_i henabled
    rw [Option.some_inj, and_iff_right henabled]
  · rename_i hdisabled
    exact iff_of_false nofun fun hboth => hdisabled hboth.1

theorem step_answer_iff {index : Nat} {newPageToken : String} :
    t.step (.answer index newPageToken) = some u ↔
      ∃ p, t.pending[index]? = some p ∧ t.answer p (t.pending.eraseIdx index) newPageToken = u :=
  Option.map_eq_some_iff

/-- The state asks for the same pages, and shows the same one of them. -/
structure Kept (s s' : TableState) : Prop where
  query : ∀ pageToken, query s' pageToken = query s pageToken
  tokenList : s'.tokenList = s.tokenList
  currentPage : s'.currentPage = s.currentPage
  maxPageIndex : s'.maxPageIndex = s.maxPageIndex

/-- An action that is enabled leaves the pages alone, or has the list started anew. -/
theorem act_kept_or_restarting (t : LiveTable) (henabled : t.state.Enabled action) :
    Kept t.state (t.act action).state ∨ (t.act action).Restarting (t.act action).pending := by
  have hturned : ∀ token, Kept t.state (t.state.reload { pageToken := token }).1 := fun token =>
    ⟨query_reload_of_token t.state token, rfl, rfl, rfl⟩
  cases action with
  | nextPage => exact Or.inl (hturned _)
  | previousPage => exact Or.inl (hturned _)
  | sortClick sortKey =>
      cases sortKey with
      | none => exact Or.inl ⟨fun _ => rfl, rfl, rfl, rfl⟩
      | some key =>
          by_cases hkey : key = ""
          · subst hkey
            exact Or.inl ⟨fun _ => rfl, rfl, rfl, rfl⟩
          · apply Or.inr
            simp only [act, TableState.perform, TableState.requestSort, if_neg hkey]
            exact ⟨_, List.mem_append_right _ (List.mem_singleton_self _), rfl,
              request_reload _ _ rfl⟩
  | pageSizeChange pageSize =>
      exact Or.inr ⟨_, List.mem_append_right _ (List.mem_singleton_self _), rfl,
        request_reload _ _ rfl⟩
  | firstLoad => exact henabled.elim
  | filterChange value => exact henabled.elim
  | reload => exact henabled.elim

/-! ## Answers -/

/-- An answer leaves the settings alone. -/
theorem query_finish (p : Pending) (s : TableState) (newPageToken : String)
    (pageToken : Option String) :
    query (p.finish s newPageToken) pageToken = query s pageToken := by
  unfold Pending.finish
  cases p.handler with
  | pageChanged newCurrentPage maxPageIndex =>
      by_cases hmore : newPageToken ≠ ""
      · simp only [if_pos hmore]
        rfl
      · simp only [if_neg hmore]
        rfl
  | resetToFirstPage => rfl
  | reload => rfl

/-- The tokens stay and stand for the same pages, and so do the answers. -/
structure Extends (t u : LiveTable) : Prop where
  query : ∀ pageToken, query u.state pageToken = query t.state pageToken
  tokens : ∀ (i : Nat) (token : String), t.state.tokenList[i]? = some token →
    u.state.tokenList[i]? = some token
  answered : t.answered ⊆ u.answered

theorem LastPage.extends {page : Nat} (hlast : t.LastPage page) (hextends : Extends t u) :
    u.LastPage page := by
  obtain ⟨token, htoken, hmem⟩ := hlast
  refine ⟨token, hextends.tokens page token htoken, ?_⟩
  rw [hextends.query]
  exact hextends.answered hmem

theorem Bound.extends {page : Nat} (hbound : t.Bound page) (hextends : Extends t u) :
    u.Bound page :=
  hbound.imp id fun hlast => hlast.extends hextends

/-- What is left to check of a table with more tokens: the new ones, and the page. -/
theorem Tolerant.extends (ht : t.Tolerant) (hextends : Extends t u)
    (hnew : ∀ i token next, t.state.tokenList.length ≤ i + 1 →
      u.state.tokenList[i]? = some token → u.state.tokenList[i + 1]? = some next →
      (query u.state (some token), next) ∈ u.answered)
    (hrange : u.state.currentPage < u.state.tokenList.length)
    (hbound : u.Bound u.state.maxPageIndex) : u.Tolerant where
  first := hextends.tokens 0 "" ht.first
  returned i token next htoken hnext := by
    by_cases hold : i + 1 < t.state.tokenList.length
    · have htoken' := List.getElem?_eq_getElem (Nat.lt_of_succ_lt hold)
      have hnext' := List.getElem?_eq_getElem hold
      have hmem := ht.returned i _ _ htoken' hnext'
      rw [Option.some.inj ((hextends.tokens i _ htoken').symm.trans htoken),
        Option.some.inj ((hextends.tokens (i + 1) _ hnext').symm.trans hnext)] at hmem
      rw [hextends.query]
      exact hextends.answered hmem
    · exact hnew i token next (Nat.le_of_not_lt hold) htoken hnext
  inRange := hrange
  bound := hbound

theorem Kept.extends (hkept : Kept t.state u.state) (hanswered : u.answered = t.answered) :
    Extends t u where
  query := hkept.query
  tokens i token htoken := by rw [hkept.tokenList]; exact htoken
  answered := by rw [hanswered]; exact List.Subset.refl _

theorem Tolerant.kept (ht : t.Tolerant) (hkept : Kept t.state u.state)
    (hanswered : u.answered = t.answered) : u.Tolerant := by
  have hextends := hkept.extends hanswered
  apply ht.extends hextends
  · intro i token next hlength _ hnext
    obtain ⟨hlt, -⟩ := List.getElem?_eq_some_iff.mp hnext
    rw [hkept.tokenList] at hlt
    exact absurd hlt (Nat.not_lt.mpr hlength)
  · rw [hkept.currentPage, hkept.tokenList]
    exact ht.inRange
  · rw [hkept.maxPageIndex]
    exact ht.bound.extends hextends

/-- What turning the page leaves, when there is a next one. -/
theorem finish_more (s : TableState) (request : ListRequest) (page maxPageIndex : Nat)
    {newPageToken : String} (hmore : newPageToken ≠ "") :
    Pending.finish ⟨request, .pageChanged page maxPageIndex⟩ s newPageToken =
      { s with
        isBusy := false
        currentPage := page
        maxPageIndex := maxPageIndex
        tokenList :=
          if page + 1 = s.tokenList.length then s.tokenList ++ [newPageToken]
          else s.tokenList } := by
  simp only [Pending.finish, if_pos hmore]

/-- Turning the page extends the list by at most one token. -/
theorem extends_answer (t : LiveTable) (request : ListRequest) (page maxPageIndex : Nat)
    (others : List Pending) (newPageToken : String) :
    Extends t (t.answer ⟨request, .pageChanged page maxPageIndex⟩ others newPageToken) where
  query := query_finish _ _ _
  tokens i token htoken := by
    by_cases hmore : newPageToken ≠ ""
    · rw [answer, finish_more _ _ _ _ hmore]
      show (if page + 1 = t.state.tokenList.length then t.state.tokenList ++ [newPageToken]
        else t.state.tokenList)[i]? = some token
      split
      · rw [List.getElem?_append_left (List.getElem?_eq_some_iff.mp htoken).1]
        exact htoken
      · exact htoken
    · rw [not_not.mp hmore]
      exact htoken
  answered := List.subset_append_left _ _

/-- Turning to a page of the list that has a next one, which may be new. -/
theorem Tolerant.turned_more (ht : t.Tolerant) {request : ListRequest} {page maxPageIndex : Nat}
    {token newPageToken : String} (others : List Pending)
    (htoken : t.state.tokenList[page]? = some token) (hmore : newPageToken ≠ "")
    (hrequest : page + 1 = t.state.tokenList.length → request = query t.state (some token))
    (hbound : t.Bound maxPageIndex) :
    (t.answer ⟨request, .pageChanged page maxPageIndex⟩ others newPageToken).Tolerant := by
  have hextends := extends_answer t request page maxPageIndex others newPageToken
  have hfinish := finish_more t.state request page maxPageIndex hmore
  have hwritten : (t.answer ⟨request, .pageChanged page maxPageIndex⟩ others
      newPageToken).state.maxPageIndex = maxPageIndex := congrArg TableState.maxPageIndex hfinish
  obtain ⟨hpage, -⟩ := List.getElem?_eq_some_iff.mp htoken
  apply ht.extends hextends
  · intro i token' next hlength htoken' hnext
    rw [hextends.query]
    simp only [answer, hfinish] at htoken' hnext ⊢
    by_cases hpush : page + 1 = t.state.tokenList.length
    · -- The one new token comes after the page.
      rw [if_pos hpush] at htoken' hnext
      obtain ⟨hlt, -⟩ := List.getElem?_eq_some_iff.mp hnext
      rw [List.length_append, List.length_singleton] at hlt
      obtain rfl : i = page := by omega
      rw [List.getElem?_append_left hpage, htoken] at htoken'
      rw [hpush, List.getElem?_append_right (Nat.le_refl _), Nat.sub_self] at hnext
      obtain rfl := Option.some.inj htoken'
      obtain rfl := Option.some.inj hnext
      rw [← hrequest hpush]
      exact List.mem_append_right _ (List.mem_singleton_self _)
    · rw [if_neg hpush] at hnext
      exact absurd (List.getElem?_eq_some_iff.mp hnext).1 (Nat.not_lt.mpr hlength)
  · simp only [answer, hfinish]
    split
    · rw [List.length_append]
      exact Nat.lt_add_right _ hpage
    · exact hpage
  · rw [hwritten]
    exact hbound.extends hextends

/-- Turning to a page of the list that turns out to be the last one. -/
theorem Tolerant.turned_last (ht : t.Tolerant) {page maxPageIndex : Nat} {token : String}
    (others : List Pending) (htoken : t.state.tokenList[page]? = some token) :
    (t.answer ⟨query t.state (some token), .pageChanged page maxPageIndex⟩ others "").Tolerant := by
  have hextends :=
    extends_answer t (query t.state (some token)) page maxPageIndex others ""
  apply ht.extends hextends
  · intro i token' next hlength _ hnext
    exact absurd (List.getElem?_eq_some_iff.mp hnext).1 (Nat.not_lt.mpr hlength)
  · exact (List.getElem?_eq_some_iff.mp htoken).1
  · apply Or.inr
    refine ⟨token, htoken, ?_⟩
    rw [hextends.query]
    exact List.mem_append_right _ (List.mem_singleton_self _)

/-- Turning the page on what still holds. -/
theorem Tolerant.turned (ht : t.Tolerant) {request : ListRequest} {page maxPageIndex : Nat}
    {newPageToken : String} (others : List Pending)
    (hcurrent : t.UpToDate ⟨request, .pageChanged page maxPageIndex⟩ newPageToken) :
    (t.answer ⟨request, .pageChanged page maxPageIndex⟩ others newPageToken).Tolerant := by
  obtain ⟨token, htoken, hrequest, hbound⟩ := hcurrent
  by_cases hmore : newPageToken ≠ ""
  · exact ht.turned_more others htoken hmore (fun hpush => hrequest (Or.inr hpush)) (hbound hmore)
  · obtain rfl := not_not.mp hmore
    obtain rfl : request = query t.state (some token) := hrequest (Or.inl rfl)
    exact ht.turned_last others htoken

/-- Reloading leaves the pages alone. -/
theorem Tolerant.reloaded (ht : t.Tolerant) (others : List Pending) (request : ListRequest)
    (newPageToken : String) : (t.answer ⟨request, .reload⟩ others newPageToken).Tolerant := by
  have hextends : Extends t (t.answer ⟨request, .reload⟩ others newPageToken) :=
    ⟨fun _ => rfl, fun _ _ htoken => htoken, List.subset_append_left _ _⟩
  refine ht.extends hextends ?_ ht.inRange (ht.bound.extends hextends)
  intro i token next hlength _ hnext
  exact absurd (List.getElem?_eq_some_iff.mp hnext).1 (Nat.not_lt.mpr hlength)

/-- Starting the list anew under the present settings. -/
theorem tolerant_restarted (t : LiveTable) (others : List Pending) (newPageToken : String) :
    (t.answer ⟨query t.state (some ""), .resetToFirstPage⟩ others newPageToken).Tolerant := by
  have hanswer : (query t.state (some ""), newPageToken) ∈
      t.answered ++ [(query t.state (some ""), newPageToken)] :=
    List.mem_append_right _ (List.mem_singleton_self _)
  by_cases hmore : newPageToken ≠ ""
  · have hfinish : Pending.finish ⟨query t.state (some ""), .resetToFirstPage⟩ t.state
        newPageToken = { t.state with
          isBusy := false
          currentPage := 0
          maxPageIndex := maxSafeInteger
          tokenList := ["", newPageToken] } := by
      simp only [Pending.finish, CustomTable.resetToFirstPage, if_pos hmore]
    rw [answer, hfinish]
    exact {
      first := rfl
      returned := by
        intro i token next htoken hnext
        cases i with
        | zero =>
            obtain rfl := Option.some.inj htoken
            obtain rfl := Option.some.inj hnext
            exact hanswer
        | succ i => cases hnext
      inRange := Nat.zero_lt_two
      bound := Or.inl rfl }
  · obtain rfl := not_not.mp hmore
    exact {
      first := rfl
      returned := by
        intro i token next _ hnext
        cases hnext
      inRange := Nat.zero_lt_one
      bound := Or.inr ⟨"", rfl, hanswer⟩ }

/-! ## Runs -/

/-- The table is as it should be, or will be when the list has been started anew. -/
def Settling (t : LiveTable) : Prop := t.Tolerant ∨ t.Restarting t.pending

theorem tolerant_mounted (props : TableProps) : (mounted props).Tolerant where
  first := rfl
  returned := by
    intro i token next _ hnext
    cases hnext
  inRange := Nat.zero_lt_one
  bound := Or.inl rfl

theorem Settling.act (ht : t.Settling) (henabled : t.state.Enabled action) :
    (t.act action).Settling := by
  cases act_kept_or_restarting t henabled with
  | inl hkept =>
      cases ht with
      | inl htolerant => exact Or.inl (htolerant.kept hkept rfl)
      | inr hrestarting =>
          obtain ⟨p, hp, hhandler, hrequest⟩ := hrestarting
          exact Or.inr ⟨p, List.mem_append_left _ hp, hhandler, by rw [hrequest, hkept.query]⟩
  | inr hrestarting => exact Or.inr hrestarting

/-- What is in flight when an answer has arrived. -/
theorem Restarting.answer {p : Pending} {others : List Pending}
    (hrestarting : t.Restarting others) (newPageToken : String) :
    (t.answer p others newPageToken).Restarting others := by
  obtain ⟨q, hq, hhandler, hrequest⟩ := hrestarting
  exact ⟨q, hq, hhandler, hrequest.trans (query_finish p t.state newPageToken _).symm⟩

/-- An answer to another request leaves the one that starts the list anew in flight. -/
theorem Restarting.eraseIdx {index : Nat} {p : Pending} (hrestarting : t.Restarting t.pending)
    (hp : t.pending[index]? = some p) (hother : p.handler ≠ .resetToFirstPage) :
    t.Restarting (t.pending.eraseIdx index) := by
  obtain ⟨q, hq, hhandler, hrequest⟩ := hrestarting
  obtain ⟨j, hj⟩ := List.mem_iff_getElem?.mp hq
  refine ⟨q, List.mem_eraseIdx_iff_getElem?.mpr ⟨j, ?_, hj⟩, hhandler, hrequest⟩
  intro hsame
  subst hsame
  rw [Option.some.inj (hp.symm.trans hj)] at hother
  exact hother hhandler

theorem Settling.answer (ht : t.Settling) {index : Nat} {p : Pending} {newPageToken : String}
    (hp : t.pending[index]? = some p)
    (htimely : t.UpToDate p newPageToken ∨ t.Restarting (t.pending.eraseIdx index)) :
    (t.answer p (t.pending.eraseIdx index) newPageToken).Settling := by
  cases htimely with
  | inr hrestarting => exact Or.inr (hrestarting.answer newPageToken)
  | inl hcurrent =>
      obtain ⟨request, handler⟩ := p
      cases handler with
      | resetToFirstPage =>
          obtain rfl : request = query t.state (some "") := hcurrent
          exact Or.inl (tolerant_restarted t _ newPageToken)
      | pageChanged page maxPageIndex =>
          cases ht with
          | inl htolerant => exact Or.inl (htolerant.turned _ hcurrent)
          | inr hrestarting => exact Or.inr ((hrestarting.eraseIdx hp nofun).answer newPageToken)
      | reload =>
          cases ht with
          | inl htolerant => exact Or.inl (htolerant.reloaded _ request newPageToken)
          | inr hrestarting => exact Or.inr ((hrestarting.eraseIdx hp nofun).answer newPageToken)

/-- **One event.** A timely event leaves the table settling. -/
theorem Settling.step (ht : t.Settling) {event : TableEvent} (htimely : t.Timely event)
    (hstep : t.step event = some u) : u.Settling := by
  cases event with
  | action action =>
      obtain ⟨henabled, rfl⟩ := step_action_iff.mp hstep
      exact ht.act henabled
  | answer index newPageToken =>
      obtain ⟨p, hp, rfl⟩ := step_answer_iff.mp hstep
      exact ht.answer hp (htimely p hp)

theorem Settling.run (ht : t.Settling) {events : List TableEvent} (htimely : t.TimelyRun events)
    (hrun : t.run events = some u) : u.Settling := by
  induction events generalizing t with
  | nil =>
      obtain rfl := Option.some.inj hrun
      exact ht
  | cons event events ih =>
      obtain ⟨v, hstep, hrest⟩ := Option.bind_eq_some_iff.mp hrun
      exact ih (ht.step htimely.1 hstep) (htimely.2 v hstep) hrest

/-- **Overlapping requests.** Whatever the user does while requests are in flight, and in
whatever order they are answered: when all of them have been answered, the tokens and the
pages of the table belong together, as long as every answer that arrived found what its
handler had read still to hold, or a request in flight that starts the list anew. -/
theorem tolerant_of_timelyRun (props : TableProps) (events : List TableEvent) (t : LiveTable)
    (htimely : (mounted props).TimelyRun events) (hrun : (mounted props).run events = some t)
    (hnone : t.pending = []) : t.Tolerant := by
  cases Settling.run (Or.inl (tolerant_mounted props)) htimely hrun with
  | inl htolerant => exact htolerant
  | inr hrestarting =>
      obtain ⟨p, hp, -⟩ := hrestarting
      rw [hnone] at hp
      exact absurd hp List.not_mem_nil

/-- One event and what follows. -/
theorem TimelyRun.cons {event : TableEvent} {events : List TableEvent}
    (hstep : t.step event = some u) (htimely : t.Timely event) (hrest : u.TimelyRun events) :
    t.TimelyRun (event :: events) := by
  apply And.intro htimely
  intro v hv
  obtain rfl := Option.some.inj (hstep.symm.trans hv)
  exact hrest

/-- A table that is sorted by its one column. -/
def oneColumn : TableProps := ⟨[some "name"], none, none⟩

/-- The user turns to the second page and sorts before it is there. The answer for the
page arrives while the list is going to be started anew. -/
theorem tolerant_of_timelyRun_sortedAfterTurning :
    ∃ t, (mounted oneColumn).run
        [.answer 0 "n1", .action .nextPage, .action (.sortClick (some "name")), .answer 0 "n2",
          .answer 0 "s1"] = some t ∧
      t.state.tokenList = ["", "s1"] ∧ t.Tolerant := by
  refine ⟨_, rfl, rfl, tolerant_of_timelyRun oneColumn
    [.answer 0 "n1", .action .nextPage, .action (.sortClick (some "name")), .answer 0 "n2",
      .answer 0 "s1"] _ ?_ rfl rfl⟩
  apply TimelyRun.cons rfl
  · intro p hp
    obtain rfl := Option.some.inj hp
    exact Or.inl ⟨"", rfl, fun _ => rfl, fun _ => Or.inl rfl⟩
  apply TimelyRun.cons rfl
  · exact trivial
  apply TimelyRun.cons rfl
  · exact trivial
  apply TimelyRun.cons rfl
  · intro p _
    exact Or.inr ⟨_, List.mem_singleton_self _, rfl, rfl⟩
  apply TimelyRun.cons rfl
  · intro p hp
    obtain rfl := Option.some.inj hp
    exact Or.inl rfl
  exact trivial

/-- The same, with the answers in the other order: the token of the old list is added to
the new one. -/
theorem late_answer_not_tolerant :
    ¬ ∀ (props : TableProps) (events : List TableEvent) (t : LiveTable),
      (mounted props).run events = some t → t.pending = [] → t.Tolerant := by
  intro hclaim
  have htolerant := hclaim oneColumn
    [.answer 0 "n1", .action .nextPage, .action (.sortClick (some "name")), .answer 1 "s1",
      .answer 0 "n2"] _ rfl rfl
  exact absurd (htolerant.returned 1 "s1" "n2" rfl rfl) (by decide)

/-! ## Turning pages only -/

/-- All requests in flight are for pages of the list. -/
structure AsksListed (t : LiveTable) : Prop where
  tolerant : t.Tolerant
  listed : ∀ p ∈ t.pending, ∃ page maxPageIndex token,
    p = ⟨query t.state (some token), .pageChanged page maxPageIndex⟩ ∧
      t.state.tokenList[page]? = some token ∧ t.Bound maxPageIndex

/-- What holds while pages are turned: the next page is known too, unless there is none. -/
structure Turning (t : LiveTable) : Prop extends AsksListed t where
  nextKnown : t.state.maxPageIndex < t.state.tokenList.length ∨
    t.state.currentPage + 1 < t.state.tokenList.length

/-- Turning a page, or an answer. -/
def Turns : TableEvent → Prop
  | .action .nextPage => True
  | .action .previousPage => True
  | .action _ => False
  | .answer _ _ => True

/-- The page that is turned to is known. -/
theorem Turning.sends (ht : t.Turning) {offset : Int} (hoffset : offset ≤ 1) :
    ∃ page token, t.state.tokenList[page]? = some token ∧
      t.state.pageChanged offset =
        ((t.state.reload { pageToken := some (some token) }).1,
          some ⟨query t.state (some token), .pageChanged page t.state.maxPageIndex⟩) := by
  have hpage : min t.state.maxPageIndex (max 0 (t.state.currentPage + offset)).toNat <
      t.state.tokenList.length := by
    have hrange := ht.tolerant.inRange
    have hnext := ht.nextKnown
    omega
  refine ⟨_, _, List.getElem?_eq_getElem hpage, ?_⟩
  simp only [TableState.pageChanged, List.getElem?_eq_getElem hpage]
  rw [request_reload _ _ rfl, query_reload_of_token]

theorem Turning.turn (ht : t.Turning) {offset : Int} (hoffset : offset ≤ 1)
    (hact : t.act action = ⟨(t.state.pageChanged offset).1,
      t.pending ++ (t.state.pageChanged offset).2.toList, t.answered⟩) :
    (t.act action).Turning := by
  obtain ⟨page, token, htoken, hsent⟩ := ht.sends hoffset
  rw [hsent] at hact
  have hkept : Kept t.state (t.act action).state := by
    rw [hact]
    exact ⟨query_reload_of_token t.state _, rfl, rfl, rfl⟩
  have hextends : Extends t (t.act action) := hkept.extends rfl
  exact {
    tolerant := ht.tolerant.kept hkept rfl
    nextKnown := by
      rw [hkept.maxPageIndex, hkept.currentPage, hkept.tokenList]
      exact ht.nextKnown
    listed := by
      intro p hp
      rw [hact] at hp
      have hall : ∃ page maxPageIndex token,
          p = ⟨query t.state (some token), .pageChanged page maxPageIndex⟩ ∧
            t.state.tokenList[page]? = some token ∧ t.Bound maxPageIndex := by
        cases List.mem_append.mp hp with
        | inl hold => exact ht.listed p hold
        | inr hnew =>
            exact ⟨page, _, token, List.mem_singleton.mp hnew, htoken, ht.tolerant.bound⟩
      obtain ⟨page', maxPageIndex, token', rfl, htoken', hbound⟩ := hall
      exact ⟨page', maxPageIndex, token', by rw [hkept.query], hextends.tokens _ _ htoken',
        hbound.extends hextends⟩ }

/-- The answer for a page of the list is up to date, and the next page is known after it. -/
theorem AsksListed.turned (ht : t.AsksListed) {index : Nat} {p : Pending}
    (hp : t.pending[index]? = some p) (newPageToken : String) :
    t.UpToDate p newPageToken ∧
      (t.answer p (t.pending.eraseIdx index) newPageToken).Turning := by
  obtain ⟨page, maxPageIndex, token, rfl, htoken, hbound⟩ :=
    ht.listed p (List.mem_of_getElem? hp)
  have hcurrent : t.UpToDate ⟨query t.state (some token), .pageChanged page maxPageIndex⟩
      newPageToken := ⟨token, htoken, fun _ => rfl, fun _ => hbound⟩
  have hextends := extends_answer t (query t.state (some token)) page maxPageIndex
    (t.pending.eraseIdx index) newPageToken
  obtain ⟨hpage, -⟩ := List.getElem?_eq_some_iff.mp htoken
  apply And.intro hcurrent
  exact {
    tolerant := ht.tolerant.turned _ hcurrent
    nextKnown := by
      by_cases hmore : newPageToken ≠ ""
      · apply Or.inr
        simp only [answer, finish_more _ _ _ _ hmore]
        split
        · rename_i hpush
          rw [List.length_append, hpush]
          exact Nat.lt_succ_self _
        · rename_i hknown
          exact Nat.lt_of_le_of_ne hpage hknown
      · obtain rfl := not_not.mp hmore
        exact Or.inl hpage
    listed := by
      intro q hq
      obtain ⟨page', maxPageIndex', token', rfl, htoken', hbound'⟩ :=
        ht.listed q (List.mem_of_mem_eraseIdx hq)
      exact ⟨page', maxPageIndex', token', by rw [hextends.query],
        hextends.tokens _ _ htoken', hbound'.extends hextends⟩ }

theorem AsksListed.timely (ht : t.AsksListed) (event : TableEvent) : t.Timely event := by
  cases event with
  | action action => exact trivial
  | answer index newPageToken => exact fun p hp => Or.inl (ht.turned hp newPageToken).1

theorem Turning.step (ht : t.Turning) {event : TableEvent} (hturns : Turns event)
    (hstep : t.step event = some u) : u.Turning := by
  cases event with
  | action action =>
      obtain ⟨-, rfl⟩ := step_action_iff.mp hstep
      cases action with
      | nextPage => exact ht.turn (by decide) rfl
      | previousPage => exact ht.turn (by decide) rfl
      | _ => exact hturns.elim
  | answer index newPageToken =>
      obtain ⟨p, hp, rfl⟩ := step_answer_iff.mp hstep
      exact (ht.turned hp newPageToken).2

theorem Turning.timelyRun (ht : t.Turning) {events : List TableEvent}
    (hturns : ∀ event ∈ events, Turns event) : t.TimelyRun events := by
  induction events generalizing t with
  | nil => exact trivial
  | cons event events ih =>
      apply And.intro (ht.timely event)
      intro u hstep
      apply ih (ht.step (hturns event List.mem_cons_self) hstep)
      exact fun e he => hturns e (List.mem_cons_of_mem event he)

theorem asksListed_mounted (props : TableProps) : (mounted props).AsksListed where
  tolerant := tolerant_mounted props
  listed := by
    intro p hp
    obtain rfl := List.mem_singleton.mp hp
    refine ⟨0, maxSafeInteger, "", ?_, rfl, Or.inl rfl⟩
    exact congrArg (Pending.mk · _) (request_reload _ _ rfl)

/-- **Turning pages.** After the first load, requests that only turn pages may overlap and
be answered in any way. -/
theorem timelyRun_of_turns (props : TableProps) (newPageToken : String)
    {events : List TableEvent} (hturns : ∀ event ∈ events, Turns event) :
    (mounted props).TimelyRun (.answer 0 newPageToken :: events) := by
  have ht := asksListed_mounted props
  apply And.intro (ht.timely _)
  intro u hstep
  obtain ⟨p, hp, rfl⟩ := step_answer_iff.mp hstep
  exact (ht.turned hp newPageToken).2.timelyRun hturns

end LiveTable

end KfMetadata.Frontend
