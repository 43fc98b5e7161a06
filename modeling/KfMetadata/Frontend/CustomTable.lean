/-
# The paged table

The table shows one page of what its page component loads for it. It asks for a page
by the token that the answer for the page before it carried, and keeps the tokens it
has been given in a list that starts with the empty token of the first page. The user
turns pages, sorts by a column, changes the page size or the filter, or has the page
loaded again; each of these sends one request, and what the answer does to the state
depends on which it was.

An answer is the token of the next page, empty for the last page; the rows go to the
page component. State updates are taken as made at once, and each request as answered
before the next action.
-/

import Mathlib.Algebra.Group.Nat.Defs
import Mathlib.Data.List.Basic

namespace KfMetadata.Frontend

/-- A request for a page. A token that is read past the end of a list is undefined. -/
structure ListRequest where
  filter : String
  orderAscending : Bool
  pageSize : Nat
  pageToken : Option String
  sortBy : String
  deriving DecidableEq, Repr

/-- The fields of a request that a caller sets itself. -/
structure LoadRequest where
  filter : Option String := none
  orderAscending : Option Bool := none
  pageSize : Option Nat := none
  pageToken : Option (Option String) := none
  sortBy : Option String := none

/-- The request with the fields that the caller has set. -/
def ListRequest.assign (request : ListRequest) (load : LoadRequest) : ListRequest where
  filter := load.filter.getD request.filter
  orderAscending := load.orderAscending.getD request.orderAscending
  pageSize := load.pageSize.getD request.pageSize
  pageToken := load.pageToken.getD request.pageToken
  sortBy := load.sortBy.getD request.sortBy

/-- The request as it is sent, with a suffix where the order is descending. -/
def ListRequest.suffixed (request : ListRequest) : ListRequest :=
  if request.sortBy ≠ "" ∧ request.orderAscending = false then
    { request with sortBy := request.sortBy ++ " desc" }
  else request

inductive SortOrder
  | asc
  | desc
  deriving DecidableEq, Repr

/-- The properties of a table that its first state depends on. -/
structure TableProps where
  /-- The sort keys of the columns; some cannot be sorted by. -/
  sortKeys : List (Option String)
  initialSortColumn : Option String
  initialSortOrder : Option SortOrder

/-- The state of a table. -/
structure TableState where
  currentPage : Nat
  filterString : String
  filterStringEncoded : String
  isBusy : Bool
  maxPageIndex : Nat
  sortOrder : SortOrder
  pageSize : Nat
  sortBy : String
  tokenList : List String

/-- A table: its state, and the requests it has sent. -/
structure CustomTable where
  state : TableState
  sent : List ListRequest

/-- The largest integer that a number holds exactly. -/
def maxSafeInteger : Nat := 2 ^ 53 - 1

/-- The column to sort by at first; an empty name counts as none. -/
def TableProps.sortColumn (props : TableProps) : String :=
  match props.initialSortColumn with
  | some name => if name ≠ "" then name else (props.sortKeys.head?.join).getD ""
  | none => (props.sortKeys.head?.join).getD ""

/-- The table before its first load. -/
def CustomTable.init (props : TableProps) : CustomTable where
  state :=
    { currentPage := 0
      filterString := ""
      filterStringEncoded := ""
      isBusy := false
      maxPageIndex := maxSafeInteger
      pageSize := 10
      sortBy := props.sortColumn
      sortOrder := props.initialSortOrder.getD .desc
      tokenList := [""] }
  sent := []

/-! ## Requests -/

/-- The request for a page, as the state has it. -/
def TableState.request (s : TableState) (pageToken : Option String) : ListRequest where
  filter := s.filterStringEncoded
  orderAscending := s.sortOrder = .asc
  pageSize := s.pageSize
  pageToken := pageToken
  sortBy := s.sortBy

/-- The state that has what a request asks for. -/
def TableState.accept (s : TableState) (request : ListRequest) : TableState :=
  { s with
    filterStringEncoded := request.filter
    pageSize := request.pageSize
    sortBy := request.sortBy
    sortOrder := if request.orderAscending then .asc else .desc }

namespace CustomTable

variable (server : ListRequest → String) (t : CustomTable)

/-- Send a request, of which the state supplies what the caller has not set. -/
def reload (load : LoadRequest) : CustomTable × String :=
  let request := (t.state.request t.state.tokenList[t.state.currentPage]?).assign load
  let state := { t.state.accept request with isBusy := true }
  let request := request.suffixed
  let result := server request
  (⟨{ state with isBusy := false }, t.sent ++ [request]⟩, result)

/-- Forget all pages but the first, and the second if there is one. -/
def resetToFirstPage (newPageToken : String) : CustomTable :=
  { t with
    state :=
      { t.state with
        currentPage := 0
        maxPageIndex := if newPageToken ≠ "" then maxSafeInteger else 0
        tokenList := if newPageToken ≠ "" then ["", newPageToken] else [""] } }

/-- Turn to another page. -/
def pageChanged (offset : Int) : CustomTable :=
  let newCurrentPage := min t.state.maxPageIndex (max 0 (t.state.currentPage + offset)).toNat
  let (t', newPageToken) := t.reload server
    { pageToken := some t.state.tokenList[newCurrentPage]? }
  if newPageToken ≠ "" then
    -- The token is new if this is the last page known.
    { t' with
      state :=
        { t'.state with
          currentPage := newCurrentPage
          tokenList :=
            if newCurrentPage + 1 = t'.state.tokenList.length then
              t'.state.tokenList ++ [newPageToken]
            else t'.state.tokenList } }
  else
    { t' with
      state := { t'.state with currentPage := newCurrentPage, maxPageIndex := newCurrentPage } }

/-- Sort by a column, the other way round if it is the one already sorted by. -/
def requestSort (sortBy : Option String) : CustomTable :=
  match sortBy with
  | none => t
  | some key =>
      if key = "" then t
      else
        let sortOrder :=
          if t.state.sortBy = key then
            if t.state.sortOrder = .asc then SortOrder.desc else SortOrder.asc
          else SortOrder.asc
        let sorted := { t with state := { t.state with sortOrder := sortOrder, sortBy := key } }
        let (t', newPageToken) := sorted.reload server
          { pageToken := some (some "")
            orderAscending := some (sortOrder = .asc)
            sortBy := some key }
        t'.resetToFirstPage newPageToken

/-- Change the number of rows of a page. -/
def requestRowsPerPage (pageSize : Nat) : CustomTable :=
  let (t', newPageToken) := t.reload server
    { pageSize := some pageSize, pageToken := some (some "") }
  t'.resetToFirstPage newPageToken

/-- Ask for what a filter lets through. Unlike the others, the request does not ask for
the first page. -/
def requestFilter (filterString : String) : CustomTable :=
  let (t', newPageToken) := t.reload server { filter := some filterString }
  t'.resetToFirstPage newPageToken

/-- The text in the filter box changes, and is asked for once typing stops. -/
def handleFilterChange (value : String) : CustomTable :=
  requestFilter server { t with state := { t.state with filterString := value } } value

end CustomTable

/-! ## Actions -/

/-- What a user does. -/
inductive TableAction
  | firstLoad
  | nextPage
  | previousPage
  | sortClick (sortKey : Option String)
  | pageSizeChange (pageSize : Nat)
  | filterChange (value : String)
  | reload
  deriving DecidableEq, Repr

namespace CustomTable

variable (server : ListRequest → String)

/-- One action, with the answer to its request. -/
def perform (t : CustomTable) : TableAction → CustomTable
  | .firstLoad => t.pageChanged server 0
  | .nextPage => t.pageChanged server 1
  | .previousPage => t.pageChanged server (-1)
  | .sortClick sortKey => t.requestSort server sortKey
  | .pageSizeChange pageSize => t.requestRowsPerPage server pageSize
  | .filterChange value => t.handleFilterChange server value
  | .reload => (t.reload server {}).1

/-- Actions one after another. -/
def run (t : CustomTable) (actions : List TableAction) : CustomTable :=
  actions.foldl (perform server) t

/-! ## What a request carries -/

/-- The request for a page under the filter, order and page size of a state. -/
def query (s : TableState) (pageToken : Option String) : ListRequest :=
  (s.request pageToken).suffixed

/-- Accepting a request makes the state ask for the same. -/
theorem request_accept (s : TableState) (request : ListRequest) :
    (s.accept request).request request.pageToken = request := by
  obtain ⟨filter, orderAscending, pageSize, pageToken, sortBy⟩ := request
  cases orderAscending <;> rfl

variable (t : CustomTable) (load : LoadRequest)

/-- The state after a request: the settings are those of the request, the pages as before. -/
def reloaded : TableState :=
  { t.state.accept ((t.state.request t.state.tokenList[t.state.currentPage]?).assign load) with
    isBusy := false }

/-- The token that a request carries. -/
def tokenOf : Option String := load.pageToken.getD t.state.tokenList[t.state.currentPage]?

/-- A request asks for its token under the settings that the state then has. -/
theorem reload_eq : t.reload server load =
    (⟨t.reloaded load, t.sent ++ [query (t.reloaded load) (t.tokenOf load)]⟩,
      server (query (t.reloaded load) (t.tokenOf load))) := by
  have hquery : query (t.reloaded load) (t.tokenOf load) =
      ((t.state.request t.state.tokenList[t.state.currentPage]?).assign load).suffixed := by
    rw [query]
    congr 1
    exact request_accept t.state
      ((t.state.request t.state.tokenList[t.state.currentPage]?).assign load)
  rw [hquery]
  rfl

/-- A request that only chooses a page leaves the settings alone. -/
theorem query_reloaded_of_token (token : Option (Option String)) (pageToken : Option String) :
    query (t.reloaded { pageToken := token }) pageToken = query t.state pageToken := by
  cases horder : t.state.sortOrder <;>
    simp [query, reloaded, TableState.request, TableState.accept, ListRequest.assign, horder]

end CustomTable

end KfMetadata.Frontend
