/-
# From the filter box to the rows

The table sends the text in its filter box as it is. The pages take the filter of a
request for the percent-encoded text of an object with predicates, and look for the value
of the first predicate in the cells of a row, all joined to one text. So a text that a
user types means what it says about a row only if it happens to come out right: mostly
it carries no predicate, and lets every row through.
-/

import KfMetadata.Frontend.LastRequest

namespace KfMetadata.Frontend

variable (host : Host)

/-! ## What a filter asks for -/

/-- Nothing, or small letters only. -/
def SmallLetters (filter : String) : Prop := ∀ c ∈ filter.toList, 'a' ≤ c ∧ c ≤ 'z'

instance (filter : String) : Decidable (SmallLetters filter) :=
  List.decidableBAll _ filter.toList

/-- The filter is the percent-encoded text of an object, and this is the value of its first
predicate, as text. -/
def Carries (filter value : String) : Prop :=
  ∃ decoded object, PercentEncoding.decode filter = some decoded ∧
    host.jsonParse decoded = some object ∧ filterString host object = .ok (some value)

/-- The filter can be decoded, but to no text of an object with a predicate that can be read. -/
def CarriesNone (filter : String) : Prop :=
  (∃ decoded, PercentEncoding.decode filter = some decoded) ∧ ∀ value, ¬ Carries host filter value

/-- Whether the cells of a row, joined to one text, include a text. -/
def inRow (text : String) (r : Row) : Bool :=
  includes (host.toLowerCase (String.join (r.otherFields.map host.joined)))
    (host.toLowerCase text)

/-- Whether one of the cells of a row includes a text. -/
def inCell (text : String) (r : Row) : Bool :=
  r.otherFields.any fun cell =>
    includes (host.toLowerCase (host.joined cell)) (host.toLowerCase text)

/-- What a filter is meant to say: none is specified, or some cell includes it. -/
def filterMatches (filter : String) (r : Row) : Bool :=
  filter = "" || inCell host filter r

/-- A filter carries one value. -/
theorem Carries.unique {filter value value' : String} (hcarries : Carries host filter value)
    (hcarries' : Carries host filter value') : value' = value := by
  obtain ⟨decoded, object, hdecoded, hobject, hvalue⟩ := hcarries
  obtain ⟨decoded', object', hdecoded', hobject', hvalue'⟩ := hcarries'
  obtain rfl := Option.some.inj (hdecoded.symm.trans hdecoded')
  obtain rfl := Option.some.inj (hobject.symm.trans hobject')
  exact Option.some.inj (Except.ok.inj (hvalue'.symm.trans hvalue))

theorem unfiltered_iff {filter : String} : unfiltered filter = true ↔ SmallLetters filter := by
  rw [unfiltered, Bool.or_eq_true, decide_eq_true_eq, List.all_eq_true]
  apply Iff.intro
  · rintro (rfl | hall)
    · exact fun c hc => absurd hc List.not_mem_nil
    · exact fun c hc => by simpa using hall c hc
  · exact fun hsmall => Or.inr fun c hc => by simpa using hsmall c hc

/-- The encoded object that the table's tests expect to be sent carries its text. -/
theorem carries_encoded {filter decoded text : String}
    (hdecoded : PercentEncoding.decode filter = some decoded)
    (hparsed : host.jsonParse decoded = some (.object [("predicates",
      .array [.object [("key", .string "name"), ("string_value", .string text)]])])) :
    Carries host filter text :=
  ⟨decoded, _, hdecoded, hparsed, rfl⟩

section Deciding

variable {host} {request : ListRequest} (r : Row)

/-- A filter in small letters lets every row through. -/
theorem rowFilterFn_of_smallLetters (hsmall : SmallLetters request.filter) :
    rowFilterFn host request r = .ok true := by
  rw [rowFilterFn, if_pos (unfiltered_iff.mpr hsmall)]

theorem rowFilterFn_of_not_smallLetters (hsmall : ¬ SmallLetters request.filter) :
    rowFilterFn host request r =
      (host.decodeURIComponent request.filter).map fun decoded => passes host decoded r := by
  rw [rowFilterFn, if_neg fun hnot => hsmall (unfiltered_iff.mp hnot)]
  cases host.decodeURIComponent request.filter with
  | error err => rfl
  | ok decoded => rfl

/-- Another one that cannot be decoded makes the page throw. -/
theorem rowFilterFn_of_malformed (hsmall : ¬ SmallLetters request.filter)
    (hmalformed : PercentEncoding.decode request.filter = none) :
    rowFilterFn host request r = .error ⟨host.malformedMessage, none⟩ := by
  rw [rowFilterFn_of_not_smallLetters r hsmall, Host.decodeURIComponent, hmalformed]
  rfl

/-- Without a predicate, every row passes. -/
theorem rowFilterFn_of_carriesNone (hsmall : ¬ SmallLetters request.filter)
    (hnone : CarriesNone host request.filter) : rowFilterFn host request r = .ok true := by
  obtain ⟨⟨decoded, hdecoded⟩, hnone⟩ := hnone
  rw [rowFilterFn_of_not_smallLetters r hsmall, Host.decodeURIComponent, hdecoded]
  show Except.ok (passes host decoded r) = .ok true
  congr 1
  rw [passes]
  cases hobject : host.jsonParse decoded with
  | none => rfl
  | some object =>
      dsimp only
      split
      next value hvalue => exact absurd ⟨decoded, object, hdecoded, hobject, hvalue⟩ (hnone value)
      next => rfl
      next => rfl

/-- With one, its value is looked for in the joined cells. -/
theorem rowFilterFn_of_carries (hsmall : ¬ SmallLetters request.filter) {value : String}
    (hcarries : Carries host request.filter value) :
    rowFilterFn host request r = .ok (inRow host value r) := by
  obtain ⟨decoded, object, hdecoded, hobject, hvalue⟩ := hcarries
  rw [rowFilterFn_of_not_smallLetters r hsmall, Host.decodeURIComponent, hdecoded]
  show Except.ok (passes host decoded r) = .ok (inRow host value r)
  rw [passes, hobject]
  dsimp only
  rw [hvalue]
  rfl

end Deciding

/-! ## What is typed -/

/-- The texts and rows for which the pages decide as the text is meant. In small letters,
and where it carries no predicate, the text has to be in one of the cells. Where it carries
one, either the text is in one of the cells and the value of the predicate in the joined
cells, or neither is. -/
inductive ComesOut (f : String) (r : Row) : Prop
  | nothing (hf : f = "")
  | smallLetters (hsmall : SmallLetters f) (hcell : inCell host f r = true)
  | noPredicate (hnone : CarriesNone host f) (hcell : inCell host f r = true)
  | included (value : String) (hsmall : ¬ SmallLetters f) (hcarries : Carries host f value)
      (hrow : inRow host value r = true) (hcell : inCell host f r = true)
  | excluded (value : String) (hsmall : ¬ SmallLetters f) (hcarries : Carries host f value)
      (hrow : inRow host value r = false) (hcell : inCell host f r = false)

theorem filter_of_sent {server : ListRequest → String} {t : CustomTable} {f : String}
    {request : ListRequest} (hsent : (t.requestFilter server f).sent = t.sent ++ [request]) :
    request.filter = f := by
  have hrequest : ((t.state.request t.state.tokenList[t.state.currentPage]?).assign
      { filter := some f }).suffixed = request :=
    List.singleton_inj.mp (List.append_cancel_left hsent)
  rw [← hrequest, ListRequest.suffixed]
  split
  · rfl
  · rfl

/-- Where the pages look into a filter, it comes out right if it carries no value and is in a
cell, or if it carries a value that is in the joined cells exactly if it is itself in one. -/
theorem comesOut_iff {f : String} {r : Row} (hsmall : ¬ SmallLetters f) :
    ComesOut host f r ↔ CarriesNone host f ∧ inCell host f r = true ∨
      ∃ value, Carries host f value ∧ inRow host value r = inCell host f r := by
  apply Iff.intro
  · intro hright
    cases hright with
    | nothing hf =>
        subst hf
        exact absurd (fun c hc => absurd hc List.not_mem_nil) hsmall
    | smallLetters hsmall' => exact absurd hsmall' hsmall
    | noPredicate hnone hcell => exact Or.inl ⟨hnone, hcell⟩
    | included value _ hcarries hrow hcell => exact Or.inr ⟨value, hcarries, hrow.trans hcell.symm⟩
    | excluded value _ hcarries hrow hcell => exact Or.inr ⟨value, hcarries, hrow.trans hcell.symm⟩
  · rintro (⟨hnone, hcell⟩ | ⟨value, hcarries, hsame⟩)
    · exact .noPredicate hnone hcell
    · cases hcell : inCell host f r with
      | true => exact .included value hsmall hcarries (hsame.trans hcell) hcell
      | false => exact .excluded value hsmall hcarries (hsame.trans hcell) hcell

/-- A request decides about a row as its filter is meant exactly when this comes out right. -/
theorem rowFilterFn_iff_comesOut (request : ListRequest) (r : Row) :
    rowFilterFn host request r = .ok (filterMatches host request.filter r) ↔
      ComesOut host request.filter r := by
  by_cases hsmall : SmallLetters request.filter
  · rw [rowFilterFn_of_smallLetters r hsmall, Except.ok.injEq, eq_comm, filterMatches,
      Bool.or_eq_true, decide_eq_true_eq]
    apply Iff.intro
    · exact fun hmatches => hmatches.elim .nothing (.smallLetters hsmall)
    · intro hright
      cases hright with
      | nothing hf => exact Or.inl hf
      | smallLetters _ hcell => exact Or.inr hcell
      | noPredicate _ hcell => exact Or.inr hcell
      | included value hnot => exact absurd hsmall hnot
      | excluded value hnot => exact absurd hsmall hnot
  · have hmatches : filterMatches host request.filter r = inCell host request.filter r := by
      have hne : request.filter ≠ "" := by
        intro hempty
        rw [hempty] at hsmall
        exact hsmall fun c hc => absurd hc List.not_mem_nil
      simp [filterMatches, hne]
    rw [hmatches, comesOut_iff host hsmall]
    by_cases hvalue : ∃ value, Carries host request.filter value
    · obtain ⟨value, hcarries⟩ := hvalue
      rw [rowFilterFn_of_carries r hsmall hcarries, Except.ok.injEq]
      apply Iff.intro
      · exact fun hsame => Or.inr ⟨value, hcarries, hsame⟩
      · rintro (⟨hnone, -⟩ | ⟨value', hcarries', hsame⟩)
        · exact absurd hcarries (hnone.2 value)
        · rwa [hcarries.unique host hcarries'] at hsame
    · have hnoValue : ∀ value, ¬ Carries host request.filter value :=
        fun value hcarries => hvalue ⟨value, hcarries⟩
      rw [or_iff_left fun hsome => hvalue (hsome.imp fun _ => And.left)]
      cases hdecoded : PercentEncoding.decode request.filter with
      | none =>
          rw [rowFilterFn_of_malformed r hsmall hdecoded]
          apply iff_of_false (fun hok => by cases hok)
          rintro ⟨⟨⟨decoded, hsome⟩, -⟩, -⟩
          rw [hdecoded] at hsome
          cases hsome
      | some decoded =>
          have hnone : CarriesNone host request.filter := ⟨⟨decoded, hdecoded⟩, hnoValue⟩
          rw [rowFilterFn_of_carriesNone r hsmall hnone, and_iff_right hnone, Except.ok.injEq,
            eq_comm]

/-- **Filtering.** What is sent for a text makes the pages decide about a row as the text
is meant exactly when the text comes out right for the row. -/
theorem rowFilterFn_sent_iff (server : ListRequest → String) (t : CustomTable) (f : String)
    (r : Row) :
    (∃ request, (t.requestFilter server f).sent = t.sent ++ [request] ∧
      rowFilterFn host request r = .ok (filterMatches host f r)) ↔ ComesOut host f r := by
  apply Iff.intro
  · rintro ⟨request, hsent, hresult⟩
    obtain rfl := filter_of_sent hsent
    exact (rowFilterFn_iff_comesOut host _ r).mp hresult
  · intro hright
    have hsent : (t.requestFilter server f).sent = t.sent ++ [_] := rfl
    have hfilter := filter_of_sent hsent
    rw [← hfilter] at hright
    refine ⟨_, hsent, ?_⟩
    have hresult := (rowFilterFn_iff_comesOut host _ r).mpr hright
    rwa [hfilter] at hresult

/-- A text in small letters only lets every row through. -/
theorem lowercase_lets_through :
    ¬ ∀ (host : Host) (server : ListRequest → String) (t : CustomTable) (f : String) (r : Row),
      ∃ request, (t.requestFilter server f).sent = t.sent ++ [request] ∧
        rowFilterFn host request r = .ok (filterMatches host f r) := by
  intro hclaim
  let r : Row := ⟨none, "1", [.text "pipelineName-1", .text "artifactName-1"]⟩
  obtain ⟨request, hsent, hresult⟩ :=
    hclaim plainHost (fun _ => "") (.init ⟨[], none, none⟩) "xyz" r
  have hsmall : SmallLetters request.filter := by
    rw [filter_of_sent hsent]
    decide
  rw [rowFilterFn_of_smallLetters r hsmall] at hresult
  exact absurd (Except.ok.inj hresult) (by decide +kernel)

-- A percent sign that starts no octet is not decoded.
example : rowFilterFn plainHost ⟨"50%", true, 10, some "", ""⟩ ⟨none, "1", [.text "50%"]⟩ =
    .error ⟨"URI malformed", none⟩ :=
  rowFilterFn_of_malformed _ (by decide) (by decide +kernel)

end KfMetadata.Frontend
