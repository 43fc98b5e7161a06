/-
# Page tokens

The tokens that the table keeps belong together: the first is empty, and each further
one is what the server answered to the request with the one before, under the filter,
order and page size of the table's state. Turning pages extends this chain by at most
one token, and the actions that change the settings ask for the first page and start a
new one. Only a filter change leaves the page to be asked for as it was, so it keeps
the tokens coherent exactly on the first page.
-/

import KfMetadata.Frontend.CustomTable
import Mathlib.Data.List.Chain

namespace KfMetadata.Frontend

namespace CustomTable

variable (server : ListRequest → String)

/-! ## Coherence -/

/-- Two requests for pages of the same list. -/
def SameList (r₁ r₂ : ListRequest) : Prop :=
  r₁.filter = r₂.filter ∧ r₁.orderAscending = r₂.orderAscending ∧ r₁.pageSize = r₂.pageSize ∧
    r₁.sortBy = r₂.sortBy

/-- Every request carries the empty token, or the answer to an earlier request for a page
of the same list. -/
def Issued (sent : List ListRequest) : Prop :=
  ∀ earlier request later, sent = earlier ++ request :: later →
    request.pageToken = some "" ∨
      ∃ asked ∈ earlier, SameList asked request ∧ request.pageToken = some (server asked)

/-- What holds of the tokens after each action. -/
structure Coherent (t : CustomTable) : Prop where
  /-- The last request was for the current page, under the current settings. -/
  lastRequest : ∃ token, t.state.tokenList[t.state.currentPage]? = some token ∧
    t.sent.getLast? = some (query t.state (some token))
  first : t.state.tokenList[0]? = some ""
  /-- Each further token is the answer for the page of the one before. -/
  answers : ∀ i token next, t.state.tokenList[i]? = some token →
    t.state.tokenList[i + 1]? = some next → next = server (query t.state (some token))
  inRange : t.state.currentPage < t.state.tokenList.length
  issued : Issued server t.sent

/-! ## The invariant -/

/-- The token after another one in the list: the answer to a request that was sent, and
not empty. -/
def Follows (t : CustomTable) (token next : String) : Prop :=
  next = server (query t.state (some token)) ∧ next ≠ "" ∧ query t.state (some token) ∈ t.sent

/-- The tokens form a chain of answers to requests that were sent. -/
structure Paged (t : CustomTable) : Prop where
  first : t.state.tokenList.head? = some ""
  chain : t.state.tokenList.IsChain (Follows server t)
  issued : Issued server t.sent

/-- The table shows a page of the chain, and has asked for it last. -/
structure Invariant (t : CustomTable) : Prop extends Paged server t where
  inRange : t.state.currentPage < t.state.tokenList.length
  lastRequest : t.sent.getLast? = some (query t.state t.state.tokenList[t.state.currentPage]?)
  /-- The next page is known, unless there is none. -/
  nextKnown : t.state.maxPageIndex < t.state.tokenList.length ∨
    t.state.currentPage + 1 < t.state.tokenList.length

variable {server} {t : CustomTable} {token : String}

/-- Neighbours in the list are related as the chain says. -/
theorem Paged.follows (hpaged : Paged server t) {i : Nat} {next : String}
    (htoken : t.state.tokenList[i]? = some token)
    (hnext : t.state.tokenList[i + 1]? = some next) : Follows server t token next := by
  obtain ⟨hi, rfl⟩ := List.getElem?_eq_some_iff.mp htoken
  obtain ⟨hi', rfl⟩ := List.getElem?_eq_some_iff.mp hnext
  exact List.isChain_iff_getElem.mp hpaged.chain i hi'

/-- Every token after the first is not empty, and follows another. -/
theorem Paged.succ (hpaged : Paged server t) {i : Nat}
    (htoken : t.state.tokenList[i + 1]? = some token) :
    ∃ before, t.state.tokenList[i]? = some before ∧ Follows server t before token := by
  obtain ⟨hi, -⟩ := List.getElem?_eq_some_iff.mp htoken
  have hbefore := List.getElem?_eq_getElem (Nat.lt_of_succ_lt hi)
  exact ⟨_, hbefore, hpaged.follows hbefore htoken⟩

theorem Invariant.coherent (hinv : Invariant server t) : Coherent server t where
  lastRequest := by
    have htoken := List.getElem?_eq_getElem hinv.inRange
    exact ⟨_, htoken, by rw [hinv.lastRequest, htoken]⟩
  first := by
    rw [← List.head?_eq_getElem?]
    exact hinv.first
  answers _ _ _ htoken hnext := (hinv.follows htoken hnext).1
  inRange := hinv.inRange
  issued := hinv.issued

/-! ## Sending a request -/

/-- A request may be added that carries the empty token, or an answer to a request for a
page of the same list. -/
theorem Issued.snoc {sent : List ListRequest} (hissued : Issued server sent)
    {request : ListRequest} (hrequest : request.pageToken = some "" ∨
      ∃ asked ∈ sent, SameList asked request ∧ request.pageToken = some (server asked)) :
    Issued server (sent ++ [request]) := by
  intro earlier request' later hsplit
  rcases List.eq_nil_or_concat later with rfl | ⟨init, last, rfl⟩
  · obtain ⟨rfl, hlast⟩ := List.append_inj' hsplit rfl
    obtain rfl := List.singleton_inj.mp hlast
    exact hrequest
  · rw [List.concat_eq_append, ← List.cons_append, ← List.append_assoc] at hsplit
    obtain ⟨hinit, -⟩ := List.append_inj' hsplit rfl
    exact hissued earlier request' init hinit

/-- The suffix does not depend on the token. -/
theorem suffixed_pageToken (request : ListRequest) (pageToken : Option String) :
    { request with pageToken := pageToken }.suffixed =
      { request.suffixed with pageToken := pageToken } := by
  obtain ⟨filter, orderAscending, pageSize, token, sortBy⟩ := request
  by_cases hkey : sortBy = ""
  · simp [ListRequest.suffixed, hkey]
  · cases orderAscending <;> simp [ListRequest.suffixed, hkey]

/-- Requests under the same settings differ in their tokens only. -/
theorem query_eq (s : TableState) (token₁ token₂ : Option String) :
    query s token₁ = { query s token₂ with pageToken := token₁ } :=
  suffixed_pageToken (s.request token₂) token₁

@[simp]
theorem query_pageToken (s : TableState) (pageToken : Option String) :
    (query s pageToken).pageToken = pageToken := by
  rw [query_eq s pageToken pageToken]

theorem sameList_query (s : TableState) (token₁ token₂ : Option String) :
    SameList (query s token₁) (query s token₂) := by
  rw [query_eq s token₁ token₂]
  exact ⟨rfl, rfl, rfl, rfl⟩

/-- A token of the list may be sent under the current settings. -/
theorem Paged.issued_query (hpaged : Paged server t) {i : Nat}
    (htoken : t.state.tokenList[i]? = some token) :
    Issued server (t.sent ++ [query t.state (some token)]) := by
  apply hpaged.issued.snoc
  rw [query_pageToken]
  cases i with
  | zero =>
      rw [← List.head?_eq_getElem?, hpaged.first] at htoken
      exact Or.inl htoken.symm
  | succ i =>
      obtain ⟨before, -, hnext, -, hsent⟩ := hpaged.succ htoken
      exact Or.inr ⟨_, hsent, sameList_query t.state (some before) (some token), by rw [hnext]⟩

/-- The chain stays one under the same settings, as requests are added. -/
theorem Follows.mono {u : CustomTable} (hquery : ∀ token, query u.state token = query t.state token)
    (hsent : t.sent ⊆ u.sent) {token next : String} (hfollows : Follows server t token next) :
    Follows server u token next := by
  obtain ⟨hnext, hne, hmem⟩ := hfollows
  rw [Follows, hquery]
  exact ⟨hnext, hne, hsent hmem⟩

/-! ## The actions -/

/-- What is left to check when the page of a known token has been asked for: that the
list still is a chain, and that the next page is known. -/
theorem Paged.turned (hpaged : Paged server t) (extra : List String) {u : CustomTable}
    {page : Nat} (htoken : t.state.tokenList[page]? = some token)
    (hquery : ∀ pageToken, query u.state pageToken = query t.state pageToken)
    (hsent : u.sent = t.sent ++ [query t.state (some token)])
    (hpage : u.state.currentPage = page)
    (hlist : u.state.tokenList = t.state.tokenList ++ extra)
    (hextra : ∀ next ∈ extra.head?, page + 1 = t.state.tokenList.length ∧
      next = server (query t.state (some token)) ∧ next ≠ "")
    (hchain : extra.IsChain (Follows server u))
    (hnext : u.state.maxPageIndex < u.state.tokenList.length ∨
      u.state.currentPage + 1 < u.state.tokenList.length) : Invariant server u := by
  obtain ⟨hlength, -⟩ := List.getElem?_eq_some_iff.mp htoken
  have htoken' : u.state.tokenList[page]? = some token := by
    rw [hlist, List.getElem?_append_left hlength, htoken]
  have hkept : t.state.tokenList.IsChain (Follows server u) :=
    hpaged.chain.imp fun _ _ => Follows.mono hquery
      (by rw [hsent]; exact List.subset_append_left _ _)
  exact {
    first := by rw [hlist, List.head?_append, hpaged.first]; rfl
    chain := by
      rw [hlist]
      apply hkept.append hchain
      intro last hlast next hmem
      obtain ⟨hpush, hanswer, hne⟩ := hextra next hmem
      -- Only the last known page gets a new successor.
      have hsame : last = token := by
        rw [List.getLast?_eq_getElem?, ← hpush, Nat.add_sub_cancel, htoken] at hlast
        exact (Option.mem_some_iff.mp hlast).symm
      rw [hsame, Follows, hquery]
      exact ⟨hanswer, hne, by rw [hsent]; exact List.mem_append_right _ (List.mem_singleton_self _)⟩
    issued := by
      rw [hsent]
      exact hpaged.issued_query htoken
    inRange := by
      rw [hpage, hlist, List.length_append]
      omega
    lastRequest := by rw [hpage, htoken', hquery, hsent, List.getLast?_concat]
    nextKnown := hnext }

/-- Turning to a page whose token is known. -/
theorem pageChanged_invariant (hpaged : Paged server t) {offset : Int}
    (hknown : min t.state.maxPageIndex (max 0 (t.state.currentPage + offset)).toNat <
      t.state.tokenList.length) : Invariant server (t.pageChanged server offset) := by
  rw [pageChanged]
  generalize min t.state.maxPageIndex (max 0 (t.state.currentPage + offset)).toNat = page at hknown
  obtain ⟨token, htoken⟩ : ∃ token, t.state.tokenList[page]? = some token :=
    ⟨_, List.getElem?_eq_getElem hknown⟩
  have hquery := t.query_reloaded_of_token (some (some token))
  simp only [htoken, reload_eq, tokenOf, Option.getD_some, hquery]
  by_cases hlast : server (query t.state (some token)) = ""
  · rw [if_neg (not_not.mpr hlast)]
    exact hpaged.turned [] htoken hquery rfl rfl (List.append_nil _).symm
      (fun next hnext => by cases hnext) List.isChain_nil (Or.inl hknown)
  · rw [if_pos hlast]
    by_cases hnew : page + 1 = t.state.tokenList.length
    · refine hpaged.turned [server (query t.state (some token))] htoken hquery rfl rfl
        (if_pos hnew) (fun next hnext => ?_) (List.isChain_singleton _) (Or.inr ?_)
      · obtain rfl := Option.mem_some_iff.mp hnext
        exact ⟨hnew, rfl, hlast⟩
      · change page + 1 < (if page + 1 = t.state.tokenList.length then _ else _ : List _).length
        rw [if_pos hnew, List.length_append]
        show page + 1 < t.state.tokenList.length + 1
        omega
    · refine hpaged.turned [] htoken hquery rfl rfl ?_
        (fun next hnext => by cases hnext) List.isChain_nil (Or.inr ?_)
      · rw [List.append_nil]
        exact if_neg hnew
      · change page + 1 < (if page + 1 = t.state.tokenList.length then _ else _ : List _).length
        rw [if_neg hnew]
        exact Nat.lt_of_le_of_ne hknown hnew

/-- Asking for the first page, whatever the settings. -/
theorem resetToFirstPage_invariant (hissued : Issued server t.sent) {load : LoadRequest}
    (hload : t.tokenOf load = some "") :
    Invariant server ((t.reload server load).1.resetToFirstPage (t.reload server load).2) := by
  rw [reload_eq, hload]
  generalize t.reloaded load = settings
  have hissued' : Issued server (t.sent ++ [query settings (some "")]) :=
    hissued.snoc (Or.inl (query_pageToken ..))
  have hlastRequest : (t.sent ++ [query settings (some "")]).getLast? =
      some (query settings (some "")) := List.getLast?_concat
  by_cases hlast : server (query settings (some "")) = ""
  · simp only [resetToFirstPage, hlast, ne_eq, not_true, if_false]
    exact {
      first := rfl
      chain := List.isChain_singleton _
      issued := hissued'
      inRange := Nat.zero_lt_one
      lastRequest := hlastRequest
      nextKnown := Or.inl Nat.zero_lt_one }
  · simp only [resetToFirstPage, hlast, ne_eq, not_false_eq_true, if_true]
    exact {
      first := rfl
      chain := List.isChain_pair.mpr
        ⟨rfl, hlast, List.mem_append_right _ (List.mem_singleton_self _)⟩
      issued := hissued'
      inRange := Nat.zero_lt_two
      lastRequest := hlastRequest
      nextKnown := Or.inr Nat.one_lt_two }

/-- Asking for the current page once more. -/
theorem reload_invariant (hinv : Invariant server t) : Invariant server (t.reload server {}).1 := by
  obtain ⟨token, htoken⟩ : ∃ token, t.state.tokenList[t.state.currentPage]? = some token :=
    ⟨_, List.getElem?_eq_getElem hinv.inRange⟩
  have hquery := t.query_reloaded_of_token none
  rw [reload_eq, tokenOf, Option.getD_none, htoken, hquery]
  exact hinv.turned [] htoken hquery rfl rfl (List.append_nil _).symm
    (fun next hnext => by cases hnext) List.isChain_nil hinv.nextKnown

/-! ## One action -/

/-- A filter is only changed on the first page. -/
def OnFirstPage (t : CustomTable) : TableAction → Prop
  | .filterChange _ => t.state.currentPage = 0
  | _ => True

/-- An action that keeps to this keeps the invariant. -/
theorem perform_invariant (hinv : Invariant server t) {action : TableAction}
    (hfirst : OnFirstPage t action) : Invariant server (t.perform server action) := by
  -- The page that is turned to is known: the next one is, or there is none.
  have hturn : ∀ offset : Int, offset ≤ 1 →
      min t.state.maxPageIndex (max 0 (t.state.currentPage + offset)).toNat <
        t.state.tokenList.length := by
    intro offset hoffset
    have hrange := hinv.inRange
    have hnext := hinv.nextKnown
    omega
  cases action with
  | firstLoad => exact pageChanged_invariant hinv.toPaged (hturn 0 (by decide))
  | nextPage => exact pageChanged_invariant hinv.toPaged (hturn 1 (by decide))
  | previousPage => exact pageChanged_invariant hinv.toPaged (hturn (-1) (by decide))
  | sortClick sortKey =>
      cases sortKey with
      | none => exact hinv
      | some key =>
          by_cases hkey : key = ""
          · simp only [perform, requestSort, if_pos hkey]
            exact hinv
          · simp only [perform, requestSort, if_neg hkey]
            exact resetToFirstPage_invariant hinv.issued rfl
  | pageSizeChange pageSize => exact resetToFirstPage_invariant hinv.issued rfl
  | filterChange value =>
      refine resetToFirstPage_invariant
        (t := { t with state := { t.state with filterString := value } }) hinv.issued ?_
      have hpage : t.state.currentPage = 0 := hfirst
      show t.state.tokenList[t.state.currentPage]? = some ""
      rw [hpage, ← List.head?_eq_getElem?]
      exact hinv.first
  | reload => exact reload_invariant hinv

/-- A filter that is changed on another page is asked for with the token of that page, and
the table then shows the first page. -/
theorem not_coherent_of_filterChange (hinv : Invariant server t) {value : String}
    (hpage : t.state.currentPage ≠ 0) :
    ¬ Coherent server (t.perform server (.filterChange value)) := by
  intro hcoherent
  obtain ⟨page, hsucc⟩ := Nat.exists_eq_succ_of_ne_zero hpage
  obtain ⟨token, htoken⟩ : ∃ token, t.state.tokenList[t.state.currentPage]? = some token :=
    ⟨_, List.getElem?_eq_getElem hinv.inRange⟩
  have htoken' := htoken
  rw [hsucc] at htoken'
  obtain ⟨before, -, -, hne, -⟩ := hinv.succ htoken'
  -- The request carries the token of the page, and is the last one sent.
  let typed : CustomTable := { t with state := { t.state with filterString := value } }
  have hlast : (t.perform server (.filterChange value)).sent.getLast? =
      some (query (typed.reloaded { filter := some value }) (some token)) := by
    show ((typed.reload server { filter := some value }).1.resetToFirstPage
      (typed.reload server { filter := some value }).2).sent.getLast? = _
    rw [reload_eq, show typed.tokenOf { filter := some value } = some token from htoken]
    exact List.getLast?_concat
  obtain ⟨shown, hshown, hrequest⟩ := hcoherent.lastRequest
  have hempty : shown = "" :=
    Option.some.inj (hshown.symm.trans hcoherent.first)
  have hsame := congrArg ListRequest.pageToken (Option.some.inj (hlast.symm.trans hrequest))
  rw [query_pageToken, query_pageToken, hempty] at hsame
  exact hne (Option.some.inj hsame)

/-! ## Every run -/

/-- Every filter change of a run happens on the first page. -/
def FiltersOnFirstPage (server : ListRequest → String) (t : CustomTable) :
    List TableAction → Prop
  | [] => True
  | action :: actions =>
      OnFirstPage t action ∧ FiltersOnFirstPage server (t.perform server action) actions

/-- The first load asks for the first page. -/
theorem firstLoad_invariant (server : ListRequest → String) (props : TableProps) :
    Invariant server ((init props).perform server .firstLoad) := by
  have hpaged : Paged server (init props) :=
    { first := rfl
      chain := List.isChain_singleton _
      issued := fun _ _ _ hsplit =>
        absurd hsplit.symm (List.append_ne_nil_of_right_ne_nil _ (List.cons_ne_nil _ _)) }
  apply pageChanged_invariant hpaged
  show min maxSafeInteger 0 < 1
  decide

/-- From a table with the invariant, coherence after each action means that filters change
on the first page. -/
theorem coherent_run_iff (hinv : Invariant server t) (actions : List TableAction) :
    (∀ n, Coherent server (run server t (actions.take n))) ↔
      FiltersOnFirstPage server t actions := by
  induction actions generalizing t with
  | nil => simpa [run, FiltersOnFirstPage] using hinv.coherent
  | cons action actions ih =>
      by_cases hfirst : OnFirstPage t action
      · rw [FiltersOnFirstPage, and_iff_right hfirst, ← ih (perform_invariant hinv hfirst)]
        apply Iff.intro
        · intro hall n
          exact hall (n + 1)
        · intro hall n
          cases n with
          | zero => exact hinv.coherent
          | succ n => exact hall n
      · refine iff_of_false (fun hall => ?_) fun hfilters => hfirst hfilters.1
        cases action with
        | filterChange value => exact not_coherent_of_filterChange hinv hfirst (hall 1)
        | _ => exact hfirst trivial

/-- **Page tokens are coherent exactly when filters change on the first page.** Whatever
the server answers: after the first load and each of any further actions the tokens of the
table are coherent, if and only if every change of the filter is made on the first page. -/
theorem coherent_iff (server : ListRequest → String) (props : TableProps)
    (actions : List TableAction) :
    (∀ n, Coherent server
      (run server ((init props).perform server .firstLoad) (actions.take n))) ↔
      FiltersOnFirstPage server ((init props).perform server .firstLoad) actions :=
  coherent_run_iff (firstLoad_invariant server props) actions

/-- On the second page a filter is asked for with the token of the second page. -/
theorem filterChange_not_coherent :
    ¬ ∀ (server : ListRequest → String) (props : TableProps) (actions : List TableAction),
      Coherent server (run server ((init props).perform server .firstLoad) actions) := by
  intro hclaim
  have hcoherent := hclaim (fun _ => "next") ⟨[some "name"], none, none⟩
    [.nextPage, .filterChange "model"]
  obtain ⟨token, htoken, hrequest⟩ := hcoherent.lastRequest
  obtain rfl : "" = token := Option.some.inj htoken
  exact absurd hrequest (by decide)

end CustomTable

end KfMetadata.Frontend
