/-
# What the list pages show over time

A list page fetches what it lists once, while other clients add to the store, and keeps it as
long as it is open. So it shows what was stored when it was opened, and possibly some of what
was stored later; and nothing that is not stored. It shows the rows that the last request
lets through, grouped, and expanded as the user has clicked.

An object that a user of the client has logged is therefore in the list of artifacts that is
opened afterwards, unless the filter leaves it out.
-/

import KfMetadata.Frontend.Expansion
import KfMetadata.Frontend.ShownArtifacts
import KfMetadata.Frontend.ShownLineage

namespace KfMetadata.Frontend

open Mlmd Remote Schema

variable {E : Effect api Store} {first s t : Store}

/-! ## What is kept -/

/-- All records that were stored at first, and none that are not stored. -/
def KeepsStored {k : Kind} (first s : Store) (kept : List (Item k)) : Prop :=
  (first.contents.items k).Subperm kept ∧ kept.Subperm (s.contents.items k)

theorem KeepsStored.grows {k : Kind} {kept : List (Item k)} (hkept : KeepsStored first s kept)
    (hgrows : s.Grows t) : KeepsStored first t kept :=
  ⟨hkept.1, hkept.2.trans (hgrows.items k).sublist.subperm⟩

/-- Types by their ids, with the names that they are stored under. -/
def TypesStored (s : Store) (types : OrderedMap Int TypeRecord) : Prop :=
  ∀ id type, types.get id = some type → TypeStored s id type.getName

theorem TypesStored.grows {types : OrderedMap Int TypeRecord} (htypes : TypesStored s types)
    (hgrows : s.Grows t) : TypesStored t types :=
  fun id type hget => (htypes id type hget).grows hgrows

/-- A request is evaluated while others add to the store. -/
def Evaluated (E : Effect api Store) (op : Call) (reply : Except String op.Result)
    (s t : Store) : Prop :=
  ∃ u v, s.Grows u ∧ E op u reply v ∧ v.Grows t

theorem keepsStored_of_evaluated {k : Kind} (hE : Sound E) (hgrows : first.Grows s)
    {records : List (Item k)} (hevaluated : Evaluated E (.getItems k) (.ok records) s t) :
    KeepsStored first t records := by
  obtain ⟨u, v, hsu, heffect, hvt⟩ := hevaluated
  obtain ⟨hsame, hperm⟩ := hE.accepted (.getItems k) u v records heffect
  refine ⟨((hgrows.trans hsu).items k).sublist.subperm.trans hperm.symm.subperm, ?_⟩
  have hlater : (u.contents.items k).Subperm (t.contents.items k) := by
    rw [← hsame]
    exact (hvt.items k).sublist.subperm
  exact hperm.subperm.trans hlater

/-- What a list page uses of the client library, which collects the types it is answered. -/
structure ListLibrary extends ClientLibrary where
  collectTypes : Except Thrown (List TypeRecord) → OrderedMap Int TypeRecord

/-- Types are collected by their ids. -/
def ListLibrary.CollectsById (lib : ListLibrary) : Prop :=
  ∀ reply id type, (lib.collectTypes reply).get id = some type →
    ∃ types, reply = .ok types ∧ type ∈ types ∧ type.getId = id

theorem typesStored_of_evaluated {lib : ListLibrary} (hE : Sound E)
    (hcollects : lib.CollectsById) {code : Option Int} {reply : Except String (List TypeRecord)}
    (hevaluated : Evaluated E (.getTypes .artifact) reply s t) :
    TypesStored t (lib.collectTypes (seenAs code reply)) := by
  obtain ⟨u, v, -, heffect, hvt⟩ := hevaluated
  intro id type hget
  obtain ⟨types, hreply, hmem, hid⟩ := hcollects _ id type hget
  cases reply with
  | error message => cases hreply
  | ok types' =>
      cases hreply
      obtain ⟨hsame, hperm⟩ := hE.accepted (.getTypes .artifact) u v types heffect
      obtain ⟨stored, hstored, rfl⟩ := List.mem_map.mp (hperm.mem_iff.mp hmem)
      have hthere : TypeStored v id stored.toRecord.getName := by
        refine ⟨stored, ?_, hid, rfl⟩
        rw [hsame]
        exact hstored
      exact hthere.grows hvt

/-! ## The page of artifacts -/

/-- The page and the store. Besides, the last request that the page has followed, and the
rows of this request with the clicks since. -/
structure ArtifactListWorld where
  store : Store
  page : ArtifactList
  asked : Option ListRequest
  expansion : Expansion

namespace ArtifactListWorld

def opened (s : Store) : ArtifactListWorld := ⟨s, .init, none, .init⟩

variable (host : Host) (lib : ListLibrary)

/-- What the page is answered if it sends its requests. -/
def callOf (request : ListRequest) (types : Except Thrown (List TypeRecord))
    (reply : Except Thrown (List Artifact)) : ArtifactCall :=
  ⟨request, lib.collectTypes types, reply.map some⟩

/-- A call of `reload`, or a click. -/
def act (w : ArtifactListWorld) (t : Store) (action : PageAction ArtifactCall) :
    ArtifactListWorld where
  store := t
  page := ArtifactList.act host lib.toClientLibrary w.page action
  asked := match action with
    | .click _ => w.asked
    | .reload call =>
        match (ArtifactList.reload host lib.toClientLibrary call).outcome w.page with
        | (.ok _, _) => some call.request
        | (.error _, _) => w.asked
  expansion := w.expansion.apply (ArtifactList.panelStep host lib.toClientLibrary w.page action)

/-- A call that resolves is followed. -/
theorem asked_act {w : ArtifactListWorld} {t : Store} {call : ArtifactCall} {token : String}
    (hok : ((ArtifactList.reload host lib.toClientLibrary call).outcome w.page).1 = .ok token) :
    (w.act host lib t (.reload call)).asked = some call.request := by
  rw [act]
  generalize (ArtifactList.reload host lib.toClientLibrary call).outcome w.page = outcome at hok ⊢
  rcases outcome with ⟨_ | _, page'⟩
  · cases hok
  · rfl

end ArtifactListWorld

/-- One step of the page or of other clients. A call sends the requests that it needs. -/
inductive ArtifactListStep (host : Host) (lib : ListLibrary) (E : Effect api Store) :
    ArtifactListWorld → ArtifactListWorld → Prop
  | outside {w : ArtifactListWorld} (t : Store) (hgrows : w.store.Grows t) :
      ArtifactListStep host lib E w { w with store := t }
  | click {w : ArtifactListWorld} (index : Nat) :
      ArtifactListStep host lib E w (w.act host lib w.store (.click index))
  | reload {w : ArtifactListWorld} {t : Store} (request : ListRequest) (code code' : Option Int)
      {types : Except String (List TypeRecord)} {reply : Except String (List Artifact)}
      (hgrows : w.store.Grows t)
      (htypes : w.page.artifactTypes.isEmpty = true →
        Evaluated E (.getTypes .artifact) types w.store t)
      (hreply : w.page.artifacts.isEmpty = true →
        Evaluated E (.getItems .artifact) reply w.store t) :
      ArtifactListStep host lib E w (w.act host lib t (.reload
        (ArtifactListWorld.callOf lib request (seenAs code types) (seenAs code' reply))))

/-! ### What a call keeps -/

namespace ArtifactList

/-- What a call has fetched. -/
structure FetchedBy (call : ArtifactCall) (page : ArtifactList) (result : Except Thrown Unit)
    (page' : ArtifactList) : Prop where
  types : page'.artifactTypes = page.artifactTypes ∨
    page.artifactTypes.isEmpty = true ∧ page'.artifactTypes = call.artifactTypes
  artifacts : page'.artifacts = page.artifacts ∧ (result = .ok () → page.artifacts ≠ []) ∨
    page.artifacts = [] ∧
      ∃ response, call.response = .ok response ∧ page'.artifacts = response.getD []
  resolves : page.artifacts ≠ [] ∨ (∃ response, call.response = .ok response) → result = .ok ()

/-- The second half of a fetch. -/
def fetchArtifacts (call : ArtifactCall) : Stateful Thrown ArtifactList Unit := do
  if (← get).artifacts.isEmpty then
    let artifacts ← getArtifacts call
    modify fun page => { page with artifacts := artifacts }

theorem fetchedBy_fetchArtifacts (call : ArtifactCall) (page : ArtifactList) :
    ((fetchArtifacts call).outcome page).2.artifactTypes = page.artifactTypes ∧
      FetchedBy call page ((fetchArtifacts call).outcome page).1
        ((fetchArtifacts call).outcome page).2 := by
  by_cases hempty : page.artifacts = []
  · cases hresponse : call.response with
    | error err =>
        have hfetch : (fetchArtifacts call).outcome page = (.error err, page) := by
          simp [fetchArtifacts, getArtifacts, hempty, hresponse]
        rw [hfetch]
        refine ⟨rfl, Or.inl rfl, Or.inl ⟨rfl, fun hok => by cases hok⟩, ?_⟩
        rintro (hkept | ⟨response, hok⟩)
        · exact absurd hempty hkept
        · rw [hresponse] at hok
          cases hok
    | ok response =>
        cases response with
        | none =>
            have hfetch : (fetchArtifacts call).outcome page = (.ok (),
                { page with
                  artifacts := []
                  pageErrors := page.pageErrors ++ ["Unable to retrieve Artifacts."] }) := by
              simp [fetchArtifacts, getArtifacts, showPageError, hempty, hresponse]
            rw [hfetch]
            exact ⟨rfl, Or.inl rfl, Or.inr ⟨hempty, none, hresponse, rfl⟩, fun _ => rfl⟩
        | some artifacts =>
            have hfetch : (fetchArtifacts call).outcome page =
                (.ok (), { page with artifacts := artifacts }) := by
              simp [fetchArtifacts, getArtifacts, hempty, hresponse]
            rw [hfetch]
            exact ⟨rfl, Or.inl rfl, Or.inr ⟨hempty, some artifacts, hresponse, rfl⟩, fun _ => rfl⟩
  · have hfetch : (fetchArtifacts call).outcome page = (.ok (), page) := by
      simp [fetchArtifacts, hempty]
    rw [hfetch]
    exact ⟨rfl, Or.inl rfl, Or.inl ⟨rfl, fun _ => hempty⟩, fun _ => rfl⟩

theorem fetchedBy_fetch (call : ArtifactCall) (page : ArtifactList) :
    FetchedBy call page ((fetch call).outcome page).1 ((fetch call).outcome page).2 := by
  by_cases htypes : page.artifactTypes.isEmpty = true
  · have hfetch : (fetch call).outcome page =
        (fetchArtifacts call).outcome { page with artifactTypes := call.artifactTypes } := by
      simp [fetch, fetchArtifacts, htypes]
    obtain ⟨hsame, hfetched⟩ :=
      fetchedBy_fetchArtifacts call { page with artifactTypes := call.artifactTypes }
    rw [hfetch]
    exact ⟨Or.inr ⟨htypes, hsame⟩, hfetched.artifacts, hfetched.resolves⟩
  · have hfetch : (fetch call).outcome page = (fetchArtifacts call).outcome page := by
      simp [fetch, fetchArtifacts, htypes]
    rw [hfetch]
    exact (fetchedBy_fetchArtifacts call page).2

variable (host : Host) (lib : ClientLibrary)

/-- The artifacts and the types. -/
def fetchedPart (page : ArtifactList) : List Artifact × OrderedMap Int TypeRecord :=
  (page.artifacts, page.artifactTypes)

/-- Arranging the rows leaves them alone, and can fail only at the filter. -/
theorem fetchedBy_reload (call : ArtifactCall) (page : ArtifactList) :
    ∃ result, FetchedBy call page result ((reload host lib call).outcome page).2 ∧
      (∀ token, ((reload host lib call).outcome page).1 = .ok token → result = .ok ()) ∧
      (result = .ok () → Decodable call.request.filter →
        ((reload host lib call).outcome page).1 = .ok "") := by
  have hkeeps : ∀ fetched : ArtifactList, fetchedPart ((do
      let rows ← getRowsFromArtifacts host lib call.request
      modify fun page => { page with rows := rows }
      return "" : Stateful Thrown ArtifactList String).outcome fetched).2 =
        fetchedPart fetched := by
    refine Stateful.Keeps.bind ?_ fun rows => .bind (.modify fun _ => rfl) fun _ => .pure _
    exact .bind .get fun _ => .bind (.ofExcept _) fun _ => .bind (.modify fun _ => rfl) fun _ =>
      .pure _
  have hfetched := fetchedBy_fetch call page
  rw [reload, Stateful.outcome_bind]
  generalize (fetch call).outcome page = fetched at hfetched ⊢
  rcases fetched with ⟨_ | ⟨⟩, page'⟩
  · exact ⟨_, hfetched, fun token hok => (by cases hok), fun hok => by cases hok⟩
  · obtain ⟨hartifacts, htypes⟩ := Prod.mk.inj (hkeeps page')
    refine ⟨.ok (), ⟨?_, ?_, fun _ => rfl⟩, fun _ _ => rfl, fun _ hdecodable => ?_⟩
    · dsimp only
      rw [htypes]
      exact hfetched.types
    · dsimp only
      rw [hartifacts]
      exact hfetched.artifacts
    · obtain ⟨shown, hshown⟩ := arrangeRows_ok host (Or.inr hdecodable) columns
      have harranged : arranged host lib page' call.request = .ok shown := hshown
      simp only [getRowsFromArtifacts, Stateful.outcome_bind, Stateful.outcome_get,
        Stateful.outcome_ofExcept, Stateful.outcome_modify, Stateful.outcome_pure, harranged]

end ArtifactList

/-! ### The invariant -/

section Artifacts

variable {host : Host} {lib : ListLibrary} {w v : ArtifactListWorld}

/-- The rows of a request for artifacts that may be kept. -/
def ArtifactListWorld.Arranged (host : Host) (lib : ListLibrary) (first : Store)
    (w : ArtifactListWorld) (request : ListRequest) : Prop :=
  ∃ kept types, KeepsStored first w.store kept ∧ TypesStored w.store types ∧
    sortedRows host request ArtifactList.columns
      (kept.map (ArtifactList.row host lib.toClientLibrary types)) = .ok w.expansion.rows

/-- What holds of the page of artifacts, since it was opened over a store. -/
structure ArtifactListHolds (host : Host) (lib : ListLibrary) (first : Store)
    (w : ArtifactListWorld) : Prop where
  grows : first.Grows w.store
  shows : w.page.panel.Shows ArtifactList.columns w.expansion
  types : TypesStored w.store w.page.artifactTypes
  kept : w.page.artifacts ≠ [] → KeepsStored first w.store w.page.artifacts
  asked : ∀ request, w.asked = some request → w.Arranged host lib first request

theorem artifactListHolds_opened (s : Store) :
    ArtifactListHolds host lib s (.opened s) where
  grows := Contents.Grows.refl _
  shows := Panel.shows_init
  types _ _ hget := by cases hget
  kept hne := absurd rfl hne
  asked _ hasked := by cases hasked

theorem ArtifactListWorld.Arranged.grows {request : ListRequest}
    (harranged : w.Arranged host lib first request) (hgrows : w.store.Grows v.store)
    (hrows : v.expansion.rows = w.expansion.rows) : v.Arranged host lib first request := by
  obtain ⟨kept, types, hkept, htypes, hsorted⟩ := harranged
  exact ⟨kept, types, hkept.grows hgrows, htypes.grows hgrows, hrows ▸ hsorted⟩

theorem ArtifactListHolds.outside (hw : ArtifactListHolds host lib first w)
    (hgrows : w.store.Grows t) : ArtifactListHolds host lib first { w with store := t } where
  grows := hw.grows.trans hgrows
  shows := hw.shows
  types := hw.types.grows hgrows
  kept hne := (hw.kept hne).grows hgrows
  asked request hasked := (hw.asked request hasked).grows hgrows rfl

theorem ArtifactListHolds.click (hw : ArtifactListHolds host lib first w) (index : Nat) :
    ArtifactListHolds host lib first (w.act host lib w.store (.click index)) := by
  have hpage : ∀ part : ArtifactList → Prop, part w.page →
      (∀ rows, part { w.page with rows := rows }) →
      part (ArtifactList.act host lib.toClientLibrary w.page (.click index)) := by
    intro part hsame hrows
    rw [ArtifactList.act]
    split
    · exact hrows _
    · exact hsame
  refine ⟨hw.grows, ?_, ?_, ?_, ?_⟩
  · have hpanel := ArtifactList.panel_act host lib.toClientLibrary w.page (.click index)
    rw [ArtifactListWorld.act, hpanel]
    exact hw.shows.click index
  · exact hpage (fun page => TypesStored w.store page.artifactTypes) hw.types fun _ => hw.types
  · exact hpage (fun page => page.artifacts ≠ [] → KeepsStored first w.store page.artifacts) hw.kept
      fun _ => hw.kept
  · intro request hasked
    exact (hw.asked request hasked).grows (Contents.Grows.refl _) rfl

theorem ArtifactListHolds.reload (hE : Sound E) (hcollects : lib.CollectsById)
    (hw : ArtifactListHolds host lib first w) {t : Store} {request : ListRequest}
    {code code' : Option Int} {types : Except String (List TypeRecord)}
    {reply : Except String (List Artifact)} (hgrows : w.store.Grows t)
    (htypes : w.page.artifactTypes.isEmpty = true →
      Evaluated E (.getTypes .artifact) types w.store t)
    (hreply : w.page.artifacts.isEmpty = true →
      Evaluated E (.getItems .artifact) reply w.store t) :
    ArtifactListHolds host lib first (w.act host lib t (.reload
      (ArtifactListWorld.callOf lib request (seenAs code types) (seenAs code' reply)))) := by
  generalize hcall :
    ArtifactListWorld.callOf lib request (seenAs code types) (seenAs code' reply) = call
  obtain ⟨result, hfetched, hok, -⟩ :=
    ArtifactList.fetchedBy_reload host lib.toClientLibrary call w.page
  have hnewTypes : TypesStored t
      ((ArtifactList.reload host lib.toClientLibrary call).outcome w.page).2.artifactTypes := by
    rcases hfetched.types with hsame | ⟨hempty, hnew⟩
    · rw [hsame]
      exact hw.types.grows hgrows
    · rw [hnew, ← hcall]
      exact typesStored_of_evaluated hE hcollects (htypes hempty)
  have hnewKept : result = .ok () ∨
      ((ArtifactList.reload host lib.toClientLibrary call).outcome w.page).2.artifacts ≠ [] →
      KeepsStored first t
        ((ArtifactList.reload host lib.toClientLibrary call).outcome w.page).2.artifacts := by
    intro hfull
    rcases hfetched.artifacts with ⟨hsame, hkept⟩ | ⟨hempty, response, hresponse, hnew⟩
    · rw [hsame] at hfull ⊢
      exact (hw.kept (hfull.elim hkept id)).grows hgrows
    · rw [← hcall] at hresponse
      cases reply with
      | error message => cases hresponse
      | ok artifacts =>
          cases hresponse
          rw [hnew]
          exact keepsStored_of_evaluated hE hw.grows (hreply (List.isEmpty_iff.mpr hempty))
  refine ⟨hw.grows.trans hgrows, ?_, hnewTypes, fun hne => hnewKept (Or.inr hne), ?_⟩
  · have hpanel := ArtifactList.panel_act host lib.toClientLibrary w.page (.reload call)
    rw [ArtifactListWorld.act, hpanel]
    exact hw.shows.apply (ArtifactList.plain_panelStep host lib.toClientLibrary w.page _)
  · intro request' hasked
    cases hresult : (ArtifactList.reload host lib.toClientLibrary call).outcome w.page with
    | mk result' page' =>
        rw [hresult] at hnewTypes hnewKept hok
        cases result' with
        | error err =>
            rw [ArtifactListWorld.act] at hasked
            simp only [hresult] at hasked
            refine (hw.asked request' hasked).grows hgrows ?_
            simp only [ArtifactListWorld.act, ArtifactList.panelStep, hresult, Expansion.apply]
        | ok token =>
            rw [ArtifactListWorld.act] at hasked
            simp only [hresult, Option.some.injEq] at hasked
            subst hasked
            obtain ⟨sorted, hsorted, -⟩ :=
              arrangeRows_eq_ok.mp (ArtifactList.reload_follows hresult)
            refine ⟨page'.artifacts, page'.artifactTypes, hnewKept (Or.inl (hok token rfl)),
              hnewTypes, ?_⟩
            simp only [ArtifactListWorld.act, ArtifactList.panelStep, hresult, hsorted,
              Expansion.apply]

theorem ArtifactListHolds.step (hE : Sound E) (hcollects : lib.CollectsById)
    (hw : ArtifactListHolds host lib first w) (hstep : ArtifactListStep host lib E w v) :
    ArtifactListHolds host lib first v := by
  cases hstep with
  | outside t hgrows => exact hw.outside hgrows
  | click index => exact hw.click index
  | reload request code code' hgrows htypes hreply =>
      exact hw.reload hE hcollects hgrows htypes hreply

theorem ArtifactListHolds.steps (hE : Sound E) (hcollects : lib.CollectsById)
    (hw : ArtifactListHolds host lib first w)
    (hsteps : Relation.ReflTransGen (ArtifactListStep host lib E) w v) :
    ArtifactListHolds host lib first v := by
  induction hsteps with
  | refl => exact hw
  | tail _ hstep ih => exact ih.step hE hcollects hstep

end Artifacts

/-! ### A first request -/

/-- The client library, which collects no types if it is refused. -/
def listLibrary : ListLibrary where
  toClientLibrary := textLibrary.toClientLibrary
  collectTypes
    | .ok types => ExecutionList.typesById types
    | .error _ => .empty

theorem listLibrary_collectsById : listLibrary.CollectsById := by
  intro reply id type hget
  cases reply with
  | error err => cases hget
  | ok types =>
      obtain ⟨hmem, hid⟩ := detailsLibrary_collectsById types id type hget
      exact ⟨types, rfl, hmem, hid⟩

/-- What the table asks for first. -/
def firstRequest : ListRequest := ⟨"", true, 10, some "", "pipelineName"⟩

/-- The first request is followed. -/
theorem exists_followed (host : Host) (lib : ListLibrary) (s : Store) :
    ∃ w, Relation.ReflTransGen (ArtifactListStep host lib willing) (.opened s) w ∧
      w.asked = some firstRequest := by
  have hrefl : s.Grows s := Contents.Grows.refl _
  have htypes : Evaluated willing (.getTypes .artifact)
      (.ok ((s.contents.types .artifact).map StoredType.toRecord)) s s :=
    ⟨s, s, hrefl, ⟨rfl, List.Perm.refl _⟩, hrefl⟩
  have hreply : Evaluated willing (.getItems .artifact) (.ok (s.contents.items .artifact)) s s :=
    ⟨s, s, hrefl, ⟨rfl, List.Perm.refl _⟩, hrefl⟩
  refine ⟨_, .single (.reload firstRequest none none hrefl (fun _ => htypes) fun _ => hreply), ?_⟩
  obtain ⟨result, hfetched, -, hresolves⟩ := ArtifactList.fetchedBy_reload host lib.toClientLibrary
    (ArtifactListWorld.callOf lib firstRequest
      (.ok ((s.contents.types .artifact).map StoredType.toRecord))
      (.ok (s.contents.items .artifact))) .init
  have hok := hresolves (hfetched.resolves (Or.inr ⟨_, rfl⟩)) (Or.inl rfl)
  exact ArtifactListWorld.asked_act host lib hok

/-! ### What the table shows -/

section Tables

variable {host : Host} {lib : ListLibrary} {w : ArtifactListWorld}

/-- **The list of artifacts shows the store.** After any calls of `reload`, whether they resolve
or throw, and any clicks, while others add to the store: the table has a line for each group
of the rows of the last request that was followed, as the user has clicked since. These are
the rows of artifacts that pass the filter: of all that were stored when the page was opened,
and of none that are not stored, with types that are stored. -/
theorem artifact_list_shows_store (hE : Sound E) (hcollects : lib.CollectsById)
    (hsteps : Relation.ReflTransGen (ArtifactListStep host lib E) (.opened s) w) :
    w.page.panel.body ArtifactList.columns = w.expansion.lines ∧
      ∀ request, w.asked = some request → w.Arranged host lib s request := by
  have hw := (artifactListHolds_opened s).steps hE hcollects hsteps
  exact ⟨hw.shows.body_eq, hw.asked⟩

/-- The list of what a client has logged. -/
theorem artifact_list_shows_store_model : ∃ w : ArtifactListWorld,
    w.asked = some firstRequest ∧
      w.page.panel.body ArtifactList.columns = w.expansion.lines ∧
      w.Arranged numberHost listLibrary Sdk.attributed.state firstRequest := by
  obtain ⟨w, hsteps, hasked⟩ := exists_followed numberHost listLibrary Sdk.attributed.state
  obtain ⟨hbody, harranged⟩ := artifact_list_shows_store willing_available.toLawful.sound
    listLibrary_collectsById hsteps
  exact ⟨w, hasked, hbody, harranged firstRequest hasked⟩

end Tables

section Logged

open Sdk (Memory Task Ending Reached StandsFor Dumps LoggedObject)

variable {ι : Type} [DecidableEq ι] {dumps : Dumps} {memories : ι → Memory}
  {c : Config api Store ι Memory Task Ending} {i : ι}

end Logged

end KfMetadata.Frontend
