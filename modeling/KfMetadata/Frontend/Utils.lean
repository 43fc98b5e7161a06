/-
# Rows of a list page

The list pages filter, sort and group their rows themselves, with what the request for a
page says. A filter is a percent-encoded text of an object with predicates, of which the
first one counts; a text of small letters only, and whatever cannot be parsed, lets every
row through. Groups are of rows with the same first cell, in the order in which these
cells first occur.
-/

import KfMetadata.Frontend.CustomTable
import KfMetadata.Frontend.Host
import KfMetadata.Library.OrderedMap
import Mathlib.Data.List.Basic

namespace KfMetadata.Frontend

structure Column where
  label : String
  sortKey : Option String
  deriving DecidableEq, Repr

variable (host : Host)

/-! ## Filters -/

/-- A filter that is taken for no filter: nothing, or small letters only. -/
def unfiltered (filter : String) : Bool :=
  filter = "" || filter.toList.all fun c => 'a' ≤ c && c ≤ 'z'

/-- The text that rows have to include. There is none without a predicate, and this fails
where the filter is not of the expected form. -/
def filterString (filter : Json) : Except Unit (Option String) := do
  let predicates ← Json.property (some filter) "predicates"
  if !Json.truthy predicates then return none
  if Json.isZero (← Json.property predicates "length") then return none
  let predicate ← Json.property predicates "0"
  let intValue ← Json.property predicate "int_value"
  let longValue ← Json.property predicate "long_value"
  let stringValue ← Json.property predicate "string_value"
  let value :=
    if Json.truthy intValue then intValue
    else if Json.truthy longValue then longValue
    else stringValue
  match value with
  | none => return some "undefined"
  | some value => return some (← host.jsonText value)

/-- Whether a filter lets a row through, which one that cannot be read does. -/
def passes (decodedFilter : String) (r : Row) : Bool :=
  match host.jsonParse decodedFilter with
  | none => true
  | some filter =>
      match filterString host filter with
      | .ok (some needle) =>
          includes (host.toLowerCase (String.join (r.otherFields.map host.joined)))
            (host.toLowerCase needle)
      | .ok none => true
      | .error _ => true

/-- Whether the filter of a request lets a row through. Only decoding it can fail. -/
def rowFilterFn (request : ListRequest) (r : Row) : Except Thrown Bool :=
  if unfiltered request.filter then .ok true
  else do
    let decodedFilter ← host.decodeURIComponent request.filter
    return passes host decodedFilter r

/-! ## Sorting -/

/-- The sort key of a request without the suffix for descending order. -/
def cleanedSortBy (sortBy : String) : String :=
  if " desc".toList.isSuffixOf sortBy.toList then
    String.ofList (sortBy.toList.take (sortBy.toList.length - 5))
  else sortBy

/-- The cell to sort by, with an empty text for one that counts as false. -/
def sortCell (columns : List Column) (sortBy : String) (r : Row) : Cell :=
  match columns.findIdx? fun c => c.sortKey = some (cleanedSortBy sortBy) with
  | some sortIndex => ((r.otherFields[sortIndex]?).getD .undefined).or (.text "")
  | none => .text ""

/-- How two rows compare. They never compare as equal. -/
def rowCompareFn (request : ListRequest) (columns : List Column) (r₁ r₂ : Row) : Int :=
  if request.sortBy = "" then -1
  else
    let compare := host.less (sortCell columns request.sortBy r₁)
      (sortCell columns request.sortBy r₂)
    if request.orderAscending then (if compare then -1 else 1)
    else if compare then 1 else -1

/-! ## Groups -/

/-- What a list page shows: the first row of each group, and by the index of that row the
others of its group. -/
structure CollapsedAndExpandedRows where
  collapsedRows : List Row
  expandedRows : OrderedMap Nat (List Row)
  deriving DecidableEq

/-- The rows of a group, of which there is at least one. -/
structure RowGroup where
  first : Row
  rest : List Row

/-- The cell that rows are grouped by. -/
def Row.groupingKey (r : Row) : Cell := r.otherFields.head?.getD .undefined

/-- The row without the text of the grouping column. -/
def Row.hideGroupingKey (r : Row) : Row :=
  { r with otherFields := .text "" :: r.otherFields.tail }

/-- The row that stands for a group. A row on its own cannot be expanded. -/
def RowGroup.collapsed (g : RowGroup) : Row :=
  if g.rest = [] then { g.first with expandState := some .none } else g.first

/-- The groups, by their cell. -/
def flattenedRows (rows : List Row) : OrderedMap Cell RowGroup :=
  rows.foldl
    (fun groups r => groups.update r.groupingKey fun
      | some g => { g with rest := g.rest ++ [r] }
      | none => ⟨r, []⟩)
    .empty

/-- Group the rows by their first cell. -/
def groupRows (rows : List Row) : CollapsedAndExpandedRows :=
  (flattenedRows rows).entries.zipIdx.foldl
    (fun shown (entry, index) =>
      { collapsedRows := shown.collapsedRows ++ [entry.2.collapsed]
        expandedRows := shown.expandedRows.set index (entry.2.rest.map Row.hideGroupingKey) })
    ⟨[], .empty⟩

/-! ## Lists of rows -/

/-- The rows that the filter of a request lets through. -/
def filterRows (request : ListRequest) : List Row → Except Thrown (List Row)
  | [] => .ok []
  | r :: rows => do
      let keep ← rowFilterFn host request r
      let others ← filterRows request rows
      return if keep then r :: others else others

/-- Filter, sort and group rows as a request says. -/
def arrangeRows (request : ListRequest) (columns : List Column) (rows : List Row) :
    Except Thrown CollapsedAndExpandedRows := do
  let filtered ← filterRows host request rows
  return groupRows (host.sort (rowCompareFn host request columns) filtered)

/-- Requests with the same filter, sort key and order arrange rows in the same way. -/
def SameRows (request₁ request₂ : ListRequest) : Prop :=
  request₁.filter = request₂.filter ∧ request₁.sortBy = request₂.sortBy ∧
    request₁.orderAscending = request₂.orderAscending

theorem arrangeRows_congr {request₁ request₂ : ListRequest} (hsame : SameRows request₁ request₂) :
    arrangeRows host request₁ = arrangeRows host request₂ := by
  obtain ⟨hfilter, hsortBy, horder⟩ := hsame
  have hrowFilter : rowFilterFn host request₁ = rowFilterFn host request₂ := by
    funext r
    simp only [rowFilterFn, hfilter]
  have hfilterRows : filterRows host request₁ = filterRows host request₂ := by
    funext rows
    induction rows with
    | nil => rfl
    | cons r rows ih => simp only [filterRows, hrowFilter, ih]
  funext columns rows
  have hrowCompare : rowCompareFn host request₁ columns = rowCompareFn host request₂ columns := by
    funext r₁ r₂
    simp only [rowCompareFn, hsortBy, horder]
  simp only [arrangeRows, hfilterRows, hrowCompare]

/-- A filter that is not looked at, or can be decoded. -/
def Decodable (filter : String) : Prop :=
  unfiltered filter = true ∨ (PercentEncoding.decode filter).isSome

/-- A filter that can be decoded decides about every row. -/
theorem rowFilterFn_ok {request : ListRequest} (hdecodable : Decodable request.filter) (r : Row) :
    ∃ keep, rowFilterFn host request r = .ok keep := by
  rw [rowFilterFn]
  split
  · exact ⟨true, rfl⟩
  · rename_i hfilter
    obtain ⟨decoded, hdecoded⟩ :=
      Option.isSome_iff_exists.mp (hdecodable.resolve_left hfilter)
    exact ⟨passes host decoded r, by rw [Host.decodeURIComponent, hdecoded]; rfl⟩

/-- So its rows can be arranged, and without rows any request will do. -/
theorem arrangeRows_ok {request : ListRequest} {rows : List Row}
    (hdecodable : rows = [] ∨ Decodable request.filter) (columns : List Column) :
    ∃ shown, arrangeRows host request columns rows = .ok shown := by
  have hfiltered : ∃ filtered, filterRows host request rows = .ok filtered := by
    rcases hdecodable with rfl | hdecodable
    · exact ⟨[], rfl⟩
    · induction rows with
      | nil => exact ⟨[], rfl⟩
      | cons r rows ih =>
          obtain ⟨keep, hkeep⟩ := rowFilterFn_ok host hdecodable r
          obtain ⟨others, hothers⟩ := ih
          exact ⟨if keep then r :: others else others, by
            rw [filterRows, hkeep, hothers]; rfl⟩
  obtain ⟨filtered, hfiltered⟩ := hfiltered
  exact ⟨_, by rw [arrangeRows, hfiltered]; rfl⟩

end KfMetadata.Frontend
