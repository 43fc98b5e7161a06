/-
# Expanding the rows of a list page

A list page shows the first row of each group, and a button at each row that is not alone
in its group. A click on the button of a row shows the other rows of its group below it,
and the next click hides them again. When the rows are arranged anew, all of them are
collapsed.

What is shown is compared with a simple account of it: the rows that were arranged last,
and how often each button has been clicked since.
-/

import KfMetadata.Frontend.Grouping
import KfMetadata.Frontend.LastRequest
import KfMetadata.Library.Fallible

namespace KfMetadata.Frontend

open Mlmd

/-! ## The body of the table -/

/-- A row in the other state. -/
def Row.toggled (r : Row) : Row :=
  { r with
    expandState := if r.expandState = some .expanded then some .collapsed else some .expanded }

/-- The part of a list page that is shown. -/
structure Panel where
  rows : List Row
  expandedRows : OrderedMap Nat (List Row)

namespace Panel

variable (columns : List Column) (p : Panel)

/-- Toggle a row. Nothing happens where there is none. -/
def toggleRowExpand (index : Nat) : Panel :=
  { p with rows := p.rows.modify index Row.toggled }

/-- The rows below a row. -/
def getExpandedRow (index : Nat) : List Row := (p.expandedRows.get index).getD []

/-- A row is only shown if it has a cell for each column. -/
def fits (r : Row) : Bool := r.otherFields.length = columns.length

/-- What is shown: each row with the rows below it, and nothing for a row that is not
shown. -/
def body : List (Option (Row × List Row)) :=
  p.rows.mapIdx fun index r =>
    if fits columns r then
      some (r, if r.expandState = some .expanded then p.getExpandedRow index else [])
    else none

/-- Whether there is a button to click. -/
def hasButton (index : Nat) : Bool :=
  p.rows[index]?.any fun r => fits columns r && r.expandState ≠ some .none

/-- A click on the button of a row, if it has one. -/
def expandButtonToggled (index : Nat) : Panel :=
  if p.hasButton columns index then p.toggleRowExpand index else p

end Panel

/-- What happens to the rows of a page. -/
inductive PanelStep
  | arrange (rows : List Row)
  | keep
  | click (index : Nat)

def Panel.apply (columns : List Column) (p : Panel) : PanelStep → Panel
  | .arrange rows => ⟨(groupRows rows).collapsedRows, (groupRows rows).expandedRows⟩
  | .keep => p
  | .click index => p.expandButtonToggled columns index

/-! ## What should be shown -/

/-- The rows that were arranged last, and the clicks since then. -/
structure Expansion where
  rows : List Row
  clicks : Nat → Nat

namespace Expansion

def init : Expansion := ⟨[], fun _ => 0⟩

def apply (e : Expansion) : PanelStep → Expansion
  | .arrange rows => ⟨rows, fun _ => 0⟩
  | .keep => e
  | .click index => { e with clicks := Function.update e.clicks index (e.clicks index + 1) }

end Expansion

/-- The rows by their first cell, in the order in which these cells first occur. -/
def rowGroups (rows : List Row) : List (List Row) :=
  (rows.map Row.groupingKey).eraseDups.map fun key => rows.filter (·.groupingKey = key)

/-- The state of a row after some clicks. -/
def stateAfter (clicks : Nat) : Option ExpandState :=
  if clicks = 0 then none else if clicks % 2 = 1 then some .expanded else some .collapsed

/-- What is shown of a group: its first row and, after an odd number of clicks, the others
below it. A row on its own cannot be expanded. -/
def line (clicks : Nat) : List Row → Option (Row × List Row)
  | [] => none
  | [r] => some ({ r with expandState := some .none }, [])
  | r :: rest => some ({ r with expandState := stateAfter clicks },
      if clicks % 2 = 1 then rest.map Row.hideGroupingKey else [])

/-- One line for each group. -/
def Expansion.lines (e : Expansion) : List (Option (Row × List Row)) :=
  (rowGroups e.rows).mapIdx fun index g => line (e.clicks index) g

/-! ## Clicks -/

/-- The first row of a group after some clicks. -/
def RowGroup.clicked (g : RowGroup) (clicks : Nat) : Row :=
  if g.rest = [] then { g.first with expandState := some .none }
  else { g.first with expandState := stateAfter clicks }

theorem RowGroup.toggled_clicked {g : RowGroup} (hrest : g.rest ≠ []) (clicks : Nat) :
    (g.clicked clicks).toggled = g.clicked (clicks + 1) := by
  rw [RowGroup.clicked, RowGroup.clicked, if_neg hrest, if_neg hrest, Row.toggled]
  congr 1
  rcases Nat.mod_two_eq_zero_or_one clicks with heven | hodd
  · have hnext : (clicks + 1) % 2 = 1 := by omega
    by_cases hzero : clicks = 0 <;> simp [stateAfter, hzero, heven, hnext]
  · have hnext : (clicks + 1) % 2 ≠ 1 := by omega
    have hzero : clicks ≠ 0 := by omega
    simp [stateAfter, hzero, hodd, hnext]

/-- The groups of the rows. -/
def groupList (rows : List Row) : List RowGroup := (flattenedRows rows).entries.map Prod.snd

theorem toList_groupList (rows : List Row) :
    (groupList rows).map RowGroup.toList = rowGroups rows := by
  have hentries := congrArg (List.map Prod.snd) (entries_flattenedRows rows)
  rw [OrderedMap.entries_collect, List.map_map, List.map_map] at hentries
  rw [groupList, List.map_map]
  exact hentries

theorem mem_of_groupList {rows : List Row} {g : RowGroup} (hg : g ∈ groupList rows) {r : Row}
    (hr : r ∈ g.toList) : r ∈ rows := by
  have hmem : g.toList ∈ rowGroups rows := by
    rw [← toList_groupList]
    exact List.mem_map_of_mem hg
  obtain ⟨key, -, hkey⟩ := List.mem_map.mp hmem
  rw [← hkey] at hr
  exact List.mem_of_mem_filter hr

/-- The rows of a page are those of its groups, after the clicks on them. -/
structure Panel.Shows (columns : List Column) (p : Panel) (e : Expansion) : Prop where
  plain : ∀ r ∈ e.rows, r.expandState = none ∧ Panel.fits columns r = true
  rows : ∀ index : Nat, p.rows[index]? =
    ((groupList e.rows)[index]?).map fun g => g.clicked (e.clicks index)
  below : ∀ (index : Nat) (g : RowGroup), (groupList e.rows)[index]? = some g →
    p.getExpandedRow index = g.rest.map Row.hideGroupingKey

namespace Panel

variable {columns : List Column} {p : Panel} {e : Expansion}

theorem shows_init : Shows columns ⟨[], .empty⟩ .init where
  plain r hr := absurd hr List.not_mem_nil
  rows index := rfl
  below index g hg := by cases hg

/-- Rows that have just been arranged are collapsed. -/
theorem shows_arrange (p : Panel) (e : Expansion) {rows : List Row}
    (hplain : ∀ r ∈ rows, r.expandState = none ∧ fits columns r = true) :
    Shows columns (p.apply columns (.arrange rows)) (e.apply (.arrange rows)) where
  plain := hplain
  rows index := by
    have hcollapsed : ∀ g ∈ groupList rows, g.collapsed = g.clicked 0 := by
      intro g hg
      rw [RowGroup.collapsed, RowGroup.clicked]
      split
      · rfl
      · have hnone := (hplain g.first (mem_of_groupList hg List.mem_cons_self)).1
        rw [stateAfter, if_pos rfl, ← hnone]
    have hrows : (groupRows rows).collapsedRows = (groupList rows).map RowGroup.collapsed := by
      rw [(groupRows_eq rows).1, groupList, List.map_map]
      rfl
    show (groupRows rows).collapsedRows[index]? = ((groupList rows)[index]?).map _
    rw [hrows, List.getElem?_map]
    cases hg : (groupList rows)[index]? with
    | none => rfl
    | some g => exact congrArg some (hcollapsed g (List.mem_of_getElem? hg))
  below index g hg := by
    have hentry : (index, g.rest.map Row.hideGroupingKey) ∈
        (groupRows rows).expandedRows.entries := by
      rw [(groupRows_eq rows).2]
      rw [groupList, List.getElem?_map] at hg
      obtain ⟨entry, hentry, rfl⟩ := Option.map_eq_some_iff.mp hg
      exact List.mem_map.mpr ⟨(entry, index), List.mem_zipIdx_iff_getElem?.mpr hentry, rfl⟩
    show ((groupRows rows).expandedRows.get index).getD [] = _
    rw [OrderedMap.get_eq_some_iff.mpr hentry, Option.getD_some]

/-- The first row of a group has a cell for each column. -/
theorem Shows.fits_clicked (hshows : p.Shows columns e) {g : RowGroup}
    (hg : g ∈ groupList e.rows) (clicks : Nat) : fits columns (g.clicked clicks) = true := by
  have hfits := (hshows.plain g.first (mem_of_groupList hg List.mem_cons_self)).2
  rw [RowGroup.clicked]
  split
  · exact hfits
  · exact hfits

/-- There is a button for each group of several rows. -/
theorem Shows.hasButton_iff (hshows : p.Shows columns e) (index : Nat) :
    p.hasButton columns index = true ↔
      ∃ g, (groupList e.rows)[index]? = some g ∧ g.rest ≠ [] := by
  rw [hasButton, hshows.rows]
  cases hg : (groupList e.rows)[index]? with
  | none => simp
  | some g =>
      have hfits := hshows.fits_clicked (List.mem_of_getElem? hg) (e.clicks index)
      simp only [Option.map_some, Option.any_some, hfits, Bool.true_and, decide_eq_true_eq,
        Option.some.injEq, exists_eq_left']
      rw [RowGroup.clicked]
      split
      next hrest => simp [hrest]
      next hrest =>
        refine iff_of_true ?_ hrest
        rw [stateAfter]
        split
        · nofun
        · split
          · nofun
          · nofun

/-- A click is counted, whether or not there is a button. -/
theorem Shows.click (hshows : p.Shows columns e) (index : Nat) :
    Shows columns (p.apply columns (.click index)) (e.apply (.click index)) where
  plain := hshows.plain
  rows other := by
    have hclicks : (e.apply (.click index)).clicks other =
        if other = index then e.clicks index + 1 else e.clicks other :=
      Function.update_apply ..
    show (p.expandButtonToggled columns index).rows[other]? = ((groupList e.rows)[other]?).map _
    rw [hclicks, expandButtonToggled]
    by_cases hother : other = index
    · subst hother
      rw [if_pos rfl]
      split
      next hbutton =>
        obtain ⟨g, hg, hrest⟩ := (hshows.hasButton_iff other).mp hbutton
        rw [toggleRowExpand, List.getElem?_modify_eq, hshows.rows, hg]
        exact congrArg some (g.toggled_clicked hrest (e.clicks other))
      next hbutton =>
        rw [hshows.rows]
        cases hg : (groupList e.rows)[other]? with
        | none => rfl
        | some g =>
            have hrest : g.rest = [] := by
              by_contra hrest
              exact hbutton ((hshows.hasButton_iff other).mpr ⟨g, hg, hrest⟩)
            simp only [Option.map_some, RowGroup.clicked, if_pos hrest]
    · rw [if_neg hother]
      split
      next => rw [toggleRowExpand, List.getElem?_modify_ne _ _ (Ne.symm hother), hshows.rows]
      next => exact hshows.rows other
  below other g hg := by
    show (p.expandButtonToggled columns index).getExpandedRow other = _
    rw [expandButtonToggled]
    split
    · exact hshows.below other g hg
    · exact hshows.below other g hg

theorem stateAfter_eq_expanded (clicks : Nat) :
    stateAfter clicks = some .expanded ↔ clicks % 2 = 1 := by
  rw [stateAfter]
  split
  next hzero => simp [hzero]
  next =>
    split
    next hodd => simp [hodd]
    next heven => simp [heven]

/-- What is shown is what should be. -/
theorem Shows.body_eq (hshows : p.Shows columns e) : p.body columns = e.lines := by
  apply List.ext_getElem?
  intro index
  rw [body, Expansion.lines, ← toList_groupList, List.getElem?_mapIdx, List.getElem?_mapIdx,
    List.getElem?_map, hshows.rows]
  cases hg : (groupList e.rows)[index]? with
  | none => rfl
  | some g =>
      have hfits := hshows.fits_clicked (List.mem_of_getElem? hg) (e.clicks index)
      have hbelow := hshows.below index g hg
      simp only [Option.map_some, hfits, if_true, hbelow, Option.some.injEq]
      obtain ⟨first, rest⟩ := g
      cases rest with
      | nil => rfl
      | cons second rest =>
          have hclicked : RowGroup.clicked ⟨first, second :: rest⟩ (e.clicks index) =
              { first with expandState := stateAfter (e.clicks index) } :=
            if_neg (List.cons_ne_nil second rest)
          simp only [hclicked, stateAfter_eq_expanded]
          rfl

/-- The rows that a step arranges are as they are built: collapsed, with a cell for each
column. -/
def Plain (columns : List Column) : PanelStep → Prop
  | .arrange rows => ∀ r ∈ rows, r.expandState = none ∧ fits columns r = true
  | _ => True

theorem Shows.apply (hshows : p.Shows columns e) {step : PanelStep} (hplain : Plain columns step) :
    Shows columns (p.apply columns step) (e.apply step) := by
  cases step with
  | arrange rows => exact shows_arrange p e hplain
  | keep => exact hshows
  | click index => exact hshows.click index

end Panel

/-! ## The page of artifacts -/

/-- What happens to a list page: a call of `reload`, or a click on a button. -/
inductive PageAction (Call : Type)
  | reload (call : Call)
  | click (index : Nat)

/-- The rows that a request lets through, in its order. -/
def sortedRows (host : Host) (request : ListRequest) (columns : List Column) (rows : List Row) :
    Except Thrown (List Row) := do
  let filtered ← filterRows host request rows
  return host.sort (rowCompareFn host request columns) filtered

theorem arrangeRows_eq_ok {host : Host} {request : ListRequest} {columns : List Column}
    {rows : List Row} {shown : CollapsedAndExpandedRows} :
    arrangeRows host request columns rows = .ok shown ↔
      ∃ sorted, sortedRows host request columns rows = .ok sorted ∧ groupRows sorted = shown := by
  rw [arrangeRows, sortedRows]
  cases filterRows host request rows with
  | error err => exact iff_of_false (fun hshown => by cases hshown) (by rintro ⟨_, ⟨⟩, -⟩)
  | ok filtered =>
      apply Iff.intro
      · intro hshown
        exact ⟨_, rfl, Except.ok.inj hshown⟩
      · rintro ⟨sorted, hsorted, rfl⟩
        exact congrArg (fun rows => Except.ok (groupRows rows)) (Except.ok.inj hsorted)

/-- What is left of rows are those that the filter lets through. -/
theorem mem_filterRows {host : Host} {request : ListRequest} {rows filtered : List Row}
    (hfilter : filterRows host request rows = .ok filtered) {r : Row} :
    r ∈ filtered ↔ r ∈ rows ∧ rowFilterFn host request r = .ok true := by
  induction rows generalizing filtered with
  | nil =>
      cases hfilter
      simp
  | cons first rows ih =>
      rw [filterRows] at hfilter
      obtain ⟨keep, hkeep, hfilter⟩ := Fallible.bind_eq_ok.mp hfilter
      obtain ⟨others, hothers, hfilter⟩ := Fallible.bind_eq_ok.mp hfilter
      obtain rfl := Except.ok.inj hfilter
      cases keep with
      | true =>
          rw [if_pos rfl, List.mem_cons, List.mem_cons, ih hothers, or_and_right]
          apply or_congr_left
          apply Iff.intro
          · rintro rfl
            exact ⟨rfl, hkeep⟩
          · exact And.left
      | false =>
          rw [if_neg Bool.false_ne_true, List.mem_cons, ih hothers, or_and_right, or_iff_right]
          rintro ⟨rfl, hpasses⟩
          cases hkeep.symm.trans hpasses

theorem mem_sortedRows {host : Host} {request : ListRequest} {columns : List Column}
    {rows sorted : List Row} (hsorted : sortedRows host request columns rows = .ok sorted)
    {r : Row} : r ∈ sorted ↔ r ∈ rows ∧ rowFilterFn host request r = .ok true := by
  rw [sortedRows] at hsorted
  obtain ⟨filtered, hfilter, hsort⟩ := Fallible.bind_eq_ok.mp hsorted
  obtain rfl := Except.ok.inj hsort
  exact (host.sort_perm _ filtered).mem_iff.trans (mem_filterRows hfilter)

namespace ArtifactList

variable (host : Host) (lib : ClientLibrary)

def panel (page : ArtifactList) : Panel := ⟨page.rows, page.expandedRows⟩

def toggleRowExpand (page : ArtifactList) (index : Nat) : ArtifactList :=
  { page with rows := (page.panel.toggleRowExpand index).rows }

def act (page : ArtifactList) : PageAction ArtifactCall → ArtifactList
  | .reload call => ((reload host lib call).outcome page).2
  | .click index => if page.panel.hasButton columns index then page.toggleRowExpand index else page

/-- A call that resolves arranges the rows of the artifacts that are kept. -/
def panelStep (page : ArtifactList) : PageAction ArtifactCall → PanelStep
  | .click index => .click index
  | .reload call =>
      match (reload host lib call).outcome page with
      | (.error _, _) => .keep
      | (.ok _, page') =>
          match sortedRows host call.request columns
            (page'.artifacts.map (row host lib page'.artifactTypes)) with
          | .ok rows => .arrange rows
          | .error _ => .keep

/-- Fetching leaves the rows alone. -/
theorem keeps_fetch (call : ArtifactCall) : Stateful.Keeps panel (fetch call) := by
  have hresponse : Stateful.Keeps panel (getArtifacts call) := by
    refine .bind (.ofExcept _) fun response => ?_
    cases response with
    | none => exact .bind (.modify fun _ => rfl) fun _ => .pure _
    | some artifacts => exact .pure _
  have hartifacts : Stateful.Keeps panel (do
      if (← get).artifacts.isEmpty then
        let artifacts ← getArtifacts call
        modify fun page => { page with artifacts := artifacts } :
      Stateful Thrown ArtifactList Unit) :=
    .bind .get fun _ => .ite (.bind hresponse fun _ => .modify fun _ => rfl) (.pure _)
  exact .bind .get fun _ => .ite (.bind (.modify fun _ => rfl) fun _ => hartifacts) hartifacts

/-- A call that throws leaves the rows alone. -/
theorem reload_error {page page' : ArtifactList} {call : ArtifactCall} {err : Thrown}
    (hfailed : (reload host lib call).outcome page = (.error err, page')) :
    page'.panel = page.panel := by
  have hfetched := keeps_fetch call page
  rw [reload, Stateful.outcome_bind] at hfailed
  generalize (fetch call).outcome page = result at hfetched hfailed
  rcases result with ⟨_ | _, fetched⟩
  · cases hfailed
    exact hfetched
  · simp only [getRowsFromArtifacts, Stateful.outcome_bind, Stateful.outcome_get,
      Stateful.outcome_ofExcept, Stateful.outcome_modify, Stateful.outcome_pure] at hfailed
    cases hshown : arranged host lib fetched call.request with
    | error err' =>
        rw [hshown] at hfailed
        cases hfailed
        exact hfetched
    | ok shown =>
        rw [hshown] at hfailed
        cases hfailed

/-- One action does to the rows what its step says. -/
theorem panel_act (page : ArtifactList) (action : PageAction ArtifactCall) :
    (act host lib page action).panel =
      page.panel.apply columns (panelStep host lib page action) := by
  cases action with
  | click index =>
      rw [act, panelStep, Panel.apply, Panel.expandButtonToggled]
      split
      · rfl
      · rfl
  | reload call =>
      rw [act, panelStep]
      cases hresult : (reload host lib call).outcome page with
      | mk result page' =>
          cases result with
          | error err => exact reload_error host lib hresult
          | ok token =>
              obtain ⟨sorted, hsorted, hshown⟩ :=
                arrangeRows_eq_ok.mp (reload_follows hresult)
              dsimp only
              rw [hsorted, Panel.apply, hshown]
              rfl

theorem plain_panelStep (page : ArtifactList) (action : PageAction ArtifactCall) :
    Panel.Plain columns (panelStep host lib page action) := by
  cases action with
  | click index => exact trivial
  | reload call =>
      rw [panelStep]
      split
      next => exact trivial
      next page' _ =>
        split
        next rows hrows =>
          intro r hr
          obtain ⟨a, -, rfl⟩ := List.mem_map.mp ((mem_sortedRows hrows).mp hr).1
          exact ⟨rfl, rfl⟩
        next => exact trivial

/-- The page after some actions, one after another. -/
def perform (page : ArtifactList) (actions : List (PageAction ArtifactCall)) : ArtifactList :=
  actions.foldl (act host lib) page

/-- What the actions do to the rows. -/
def panelSteps (page : ArtifactList) : List (PageAction ArtifactCall) → List PanelStep
  | [] => []
  | action :: actions =>
      panelStep host lib page action :: panelSteps (act host lib page action) actions

/-- **What the page of artifacts shows.** After any calls of `reload`, whether they resolve
or throw, and any clicks on the buttons of the table, there is a line for each group of the
rows that were arranged last; it shows the first row of its group, and the others below it
if and only if its button has been clicked an odd number of times since. -/
theorem body_perform (actions : List (PageAction ArtifactCall)) :
    (perform host lib .init actions).panel.body columns =
      ((panelSteps host lib .init actions).foldl Expansion.apply .init).lines := by
  suffices hshows : ∀ (page : ArtifactList) (e : Expansion), page.panel.Shows columns e →
      (perform host lib page actions).panel.Shows columns
        ((panelSteps host lib page actions).foldl Expansion.apply e) from
    (hshows .init .init Panel.shows_init).body_eq
  induction actions with
  | nil => exact fun _ _ => id
  | cons action actions ih =>
      intro page e hshows
      apply ih
      rw [panel_act]
      exact hshows.apply (plain_panelStep host lib page action)

end ArtifactList

/-! ## The page of executions -/

namespace ExecutionList

variable (host : Host) (lib : ClientLibrary)

def panel (page : ExecutionList) : Panel := ⟨page.rows, page.expandedRows⟩

def toggleRowExpand (page : ExecutionList) (index : Nat) : ExecutionList :=
  { page with rows := (page.panel.toggleRowExpand index).rows }

def act (page : ExecutionList) : PageAction ExecutionCall → ExecutionList
  | .reload call => ((reload host lib call).outcome page).2
  | .click index => if page.panel.hasButton columns index then page.toggleRowExpand index else page

/-- A call arranges rows if there were no executions yet, and nothing goes wrong. -/
def panelStep (page : ExecutionList) : PageAction ExecutionCall → PanelStep
  | .click index => .click index
  | .reload call =>
      if page.executions.isEmpty then
        match (fetchExecutions host lib call).outcome ((fetchTypes call).outcome page).2 with
        | (.error _, _) => .keep
        | (.ok _, page') =>
            match sortedRows host call.request columns
              (page'.executions.map (row host lib page'.executionTypesMap)) with
            | .ok rows => .arrange rows
            | .error _ => .keep
      else .keep

/-- Fetching the types never throws. -/
theorem fetchTypes_ok (page : ExecutionList) (call : ExecutionCall) :
    ∃ fetched, (fetchTypes call).outcome page = (.ok (), fetched) ∧
      fetched.panel = page.panel ∧ fetched.executions = page.executions := by
  by_cases hcached : page.executionTypesMap.isEmpty
  · cases htypes : call.typesResponse with
    | ok types =>
        refine ⟨_, outcome_fetchTypes page htypes, ?_⟩
        rw [if_pos hcached]
        exact ⟨rfl, rfl⟩
    | error err =>
        refine ⟨_, by simp [fetchTypes, getExecutionTypes, hcached, htypes, showPageError]; rfl, ?_⟩
        exact ⟨rfl, rfl⟩
  · exact ⟨page, by simp [fetchTypes, hcached], rfl, rfl⟩

theorem outcome_getExecutions (page : ExecutionList) (call : ExecutionCall) :
    ∃ result, (getExecutions call).outcome page = (result, page) := by
  rw [getExecutions]
  cases call.response with
  | ok executions => exact ⟨.ok executions, rfl⟩
  | error err =>
      by_cases hcode : err.code = some 5
      · exact ⟨.ok [], by simp [hcode]⟩
      · exact ⟨_, by simp only [if_neg hcode]; rfl⟩

/-- Where there are no executions, they are fetched and arranged, or the rows stay. -/
theorem fetchExecutions_of_empty {page page' : ExecutionList} {call : ExecutionCall}
    {result : Except Thrown Unit} (hempty : page.executions.isEmpty = true)
    (hfetch : (fetchExecutions host lib call).outcome page = (result, page')) :
    match result with
    | .error _ => page'.panel = page.panel
    | .ok _ => ∃ sorted, sortedRows host call.request columns
        (page'.executions.map (row host lib page'.executionTypesMap)) = .ok sorted ∧
          page'.panel = ⟨(groupRows sorted).collapsedRows, (groupRows sorted).expandedRows⟩ := by
  obtain ⟨response, hresponse⟩ := outcome_getExecutions page call
  simp only [fetchExecutions, Stateful.outcome_bind, Stateful.outcome_get, hempty, if_true,
    hresponse] at hfetch
  cases response with
  | error err =>
      cases hfetch
      rfl
  | ok executions =>
      simp only [Stateful.outcome_modify, Stateful.outcome_ofExcept] at hfetch
      generalize hkept : { page with executions := executions } = kept at hfetch
      have hpanel : kept.panel = page.panel := hkept ▸ rfl
      have hexecutions : kept.executions = executions := hkept ▸ rfl
      cases hshown : getRowsFromExecutions host lib kept call.request executions with
      | error err =>
          rw [hshown] at hfetch
          cases hfetch
          exact hpanel
      | ok shown =>
          rw [hshown] at hfetch
          cases hfetch
          obtain ⟨sorted, hsorted, rfl⟩ := arrangeRows_eq_ok.mp hshown
          exact ⟨sorted, hexecutions ▸ hsorted, rfl⟩

/-- One action does to the rows what its step says. -/
theorem panel_act (page : ExecutionList) (action : PageAction ExecutionCall) :
    (act host lib page action).panel =
      page.panel.apply columns (panelStep host lib page action) := by
  cases action with
  | click index =>
      rw [act, panelStep, Panel.apply, Panel.expandButtonToggled]
      split
      · rfl
      · rfl
  | reload call =>
      obtain ⟨fetched, htypes, hpanel, hexecutions⟩ := fetchTypes_ok page call
      have hreload : ((reload host lib call).outcome page).2.panel =
          ((fetchExecutions host lib call).outcome fetched).2.panel := by
        simp only [reload, Stateful.outcome_bind, Stateful.outcome_tryCatch, htypes]
        generalize (fetchExecutions host lib call).outcome fetched = result
        rcases result with ⟨_ | _, page'⟩
        · rfl
        · rfl
      rw [act, panelStep, hreload, htypes]
      split
      next hempty =>
        have hnone : fetched.executions.isEmpty = true := hexecutions ▸ hempty
        cases hresult : (fetchExecutions host lib call).outcome fetched with
        | mk result page' =>
            have hfetch := fetchExecutions_of_empty host lib hnone hresult
            cases result with
            | error err => exact hfetch.trans hpanel
            | ok done =>
                obtain ⟨sorted, hsorted, hshown⟩ := hfetch
                dsimp only
                rw [hsorted]
                exact hshown
      next hkept =>
        have hne : fetched.executions ≠ [] := fun hnil => hkept (by rw [← hexecutions, hnil]; rfl)
        rw [outcome_fetchExecutions_of_kept hne]
        exact hpanel

theorem plain_panelStep (page : ExecutionList) (action : PageAction ExecutionCall) :
    Panel.Plain columns (panelStep host lib page action) := by
  cases action with
  | click index => exact trivial
  | reload call =>
      rw [panelStep]
      split
      next =>
        split
        next => exact trivial
        next page' _ =>
          split
          next rows hrows =>
            intro r hr
            obtain ⟨x, -, rfl⟩ := List.mem_map.mp ((mem_sortedRows hrows).mp hr).1
            exact ⟨rfl, rfl⟩
          next => exact trivial
      next => exact trivial

/-- The page after some actions, one after another. -/
def perform (page : ExecutionList) (actions : List (PageAction ExecutionCall)) : ExecutionList :=
  actions.foldl (act host lib) page

/-- What the actions do to the rows. -/
def panelSteps (page : ExecutionList) : List (PageAction ExecutionCall) → List PanelStep
  | [] => []
  | action :: actions =>
      panelStep host lib page action :: panelSteps (act host lib page action) actions

theorem shows_perform {page : ExecutionList} {e : Expansion} (hshows : page.panel.Shows columns e)
    (actions : List (PageAction ExecutionCall)) :
    (perform host lib page actions).panel.Shows columns
      ((panelSteps host lib page actions).foldl Expansion.apply e) := by
  induction actions generalizing page e with
  | nil => exact hshows
  | cons action actions ih =>
      apply ih
      rw [panel_act]
      exact hshows.apply (plain_panelStep host lib page action)

/-- Executions that are kept stay. -/
theorem act_kept {page : ExecutionList} (hkept : page.executions ≠ [])
    (action : PageAction ExecutionCall) :
    (act host lib page action).executions = page.executions := by
  cases action with
  | click index =>
      rw [act]
      split
      · rfl
      · rfl
  | reload call =>
      obtain ⟨fetched, htypes, -, hexecutions⟩ := fetchTypes_ok page call
      have hfetch : (fetchExecutions host lib call).outcome fetched = (.ok (), fetched) :=
        outcome_fetchExecutions_of_kept (hexecutions ▸ hkept)
      rw [act, outcome_reload htypes hfetch]
      exact hexecutions

/-- The clicks among the actions. -/
def clicksIn (actions : List (PageAction ExecutionCall)) (index : Nat) : Nat :=
  actions.countP fun
    | .click i => i = index
    | .reload _ => false

theorem foldl_panelSteps_of_kept {page : ExecutionList} (hkept : page.executions ≠ [])
    (actions : List (PageAction ExecutionCall)) (e : Expansion) :
    (panelSteps host lib page actions).foldl Expansion.apply e =
      { e with clicks := fun index => e.clicks index + clicksIn actions index } := by
  induction actions generalizing page e with
  | nil => rfl
  | cons action actions ih =>
      have hnext : (act host lib page action).executions ≠ [] :=
        act_kept host lib hkept action ▸ hkept
      rw [panelSteps, List.foldl_cons, ih hnext]
      cases action with
      | click index =>
          simp only [panelStep, Expansion.apply, Expansion.mk.injEq, true_and]
          funext other
          rw [Function.update_apply, clicksIn, clicksIn, List.countP_cons]
          split
          next hother => simp [hother, Nat.add_assoc, Nat.add_comm 1]
          next hother => simp [Ne.symm hother]
      | reload call =>
          have hempty : page.executions.isEmpty = false := by
            simpa using hkept
          simp [panelStep, hempty, Expansion.apply, clicksIn]

/-- **What the page of executions shows.** After any calls of `reload` and any clicks the
lines are those of the groups of the rows that were arranged last, with the clicks since.
Once there are executions, this is all that happens: whatever is called from then on, with
whatever filter and order, the lines only change by clicks. -/
theorem body_perform_kept (earlier later : List (PageAction ExecutionCall)) :
    let e := (panelSteps host lib .init earlier).foldl Expansion.apply .init
    (perform host lib .init earlier).panel.body columns = e.lines ∧
      ((perform host lib .init earlier).executions ≠ [] →
        (perform host lib .init (earlier ++ later)).panel.body columns = Expansion.lines
          { e with clicks := fun index => e.clicks index + clicksIn later index }) := by
  have hinit : (panel .init).Shows columns .init := Panel.shows_init
  have hearlier := shows_perform host lib hinit earlier
  refine ⟨hearlier.body_eq, fun hkept => ?_⟩
  have hlater := shows_perform host lib hearlier later
  rw [foldl_panelSteps_of_kept host lib hkept] at hlater
  rw [perform, List.foldl_append]
  exact hlater.body_eq

/-- A filter for rows with the text "other". -/
def otherFilter : String :=
  "\x7b\"predicates\":[\x7b\"string_value\":\"other\"\x7d]\x7d"

/-- A browser that can read the filter. -/
def filteringHost : Host :=
  { plainHost with
    jsonParse := fun text =>
      if text = otherFilter then
        some (.object [("predicates", .array [.object [("string_value", .string "other")]])])
      else none }

/-- A call for these rows. -/
def filterOther : ExecutionCall :=
  { sortById true with request := { (sortById true).request with filter := otherFilter } }

/-- Two executions are shown. A call with a filter that neither of them passes is made, which
would leave a new page empty, and then the group is opened: it still has both. -/
theorem body_perform_kept_filtered :
    (perform filteringHost plainLibrary .init [.reload filterOther]).panel.body columns = [] ∧
    (perform filteringHost plainLibrary .init
        ([.reload (sortById true)] ++ [.reload filterOther, .click 0])).panel.body columns =
      [some (⟨some .expanded, "trainer:1",
          [.null, .null, .null, .number (.finite 1), .text "trainer"]⟩,
        [⟨none, "trainer:2",
          [.text "", .null, .null, .number (.finite 2), .text "trainer"]⟩])] := by
  have hkept : (perform filteringHost plainLibrary .init
      [.reload (sortById true)]).executions ≠ [] := by decide +kernel
  refine ⟨by decide +kernel, ?_⟩
  rw [(body_perform_kept filteringHost plainLibrary _ _).2 hkept]
  decide +kernel

end ExecutionList

end KfMetadata.Frontend
