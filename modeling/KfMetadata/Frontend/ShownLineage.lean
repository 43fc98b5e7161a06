/-
# What the page of an execution shows over time

An invariant of the page, its requests and the store they are sent to. Replies that are
under way were right when they were sent, and stay right, because the store only grows:
what was stored is found unchanged, and no event is taken away.

The page therefore shows the lineage that a client has logged. If logging an input or an
output has returned before the page is opened, its artifact is in the table.
-/

import KfMetadata.Frontend.ExecutionDetails
import KfMetadata.Library.Grouping
import KfMetadata.Service.LaterRequests
import KfMetadata.Sdk.Lineage

namespace KfMetadata.Frontend

open Mlmd Remote

/-! ## What is right -/

/-- The stored events of an execution. -/
def eventsOf (n : Int) (s : Store) : List Event :=
  s.contents.events.filter fun e => isAmong [n] e.executionId

theorem eventsOf_sublist {s t : Store} (n : Int) (hgrows : s.Grows t) :
    (eventsOf n s).Sublist (eventsOf n t) := hgrows.events.sublist.filter _

/-- All events of an execution that were stored at first, and none that are not stored. -/
def Covers (n : Int) (first s : Store) (events : List Event) : Prop :=
  (eventsOf n first).Subperm events ∧ events.Subperm (eventsOf n s)

theorem Covers.grows {n : Int} {first s t : Store} {events : List Event}
    (hcovers : Covers n first s events) (hgrows : s.Grows t) : Covers n first t events :=
  ⟨hcovers.1, hcovers.2.trans (eventsOf_sublist n hgrows).subperm⟩

/-- Types by their ids, with the names that they are stored under. -/
def TypeStored (s : Store) (id : Int) (name : String) : Prop :=
  ∃ t ∈ s.contents.types .artifact, t.id = id ∧ t.name = name

theorem TypeStored.grows {s t : Store} {id : Int} {name : String} (hstored : TypeStored s id name)
    (hgrows : s.Grows t) : TypeStored t id name := by
  obtain ⟨type, hmem, rfl, rfl⟩ := hstored
  obtain ⟨later, hlater, hid, hname, -⟩ := hgrows.types .artifact type hmem
  exact ⟨later, hlater, hid, hname⟩

/-- Records that are stored. -/
def AllStored {k : Kind} (s : Store) (items : List (Item k)) : Prop :=
  ∀ x ∈ items, x ∈ s.contents.items k

theorem AllStored.grows {k : Kind} {s t : Store} {items : List (Item k)}
    (hstored : AllStored s items) (hgrows : s.Grows t) : AllStored t items :=
  fun x hx => (hgrows.items k).subset (hstored x hx)

/-- What a table knows is what is stored. -/
def DataStored (lib : ClientLibrary) (s : Store) (data : OrderedMap Int ArtifactInfo) : Prop :=
  ∀ id info, data.get id = some info →
    ∃ a ∈ s.contents.items .artifact, a.id = some id ∧ info = SectionIo.artifactInfo lib a

theorem DataStored.grows {lib : ClientLibrary} {s t : Store} {data : OrderedMap Int ArtifactInfo}
    (hstored : DataStored lib s data) (hgrows : s.Grows t) : DataStored lib t data := by
  intro id info hinfo
  obtain ⟨a, ha, hid, hsame⟩ := hstored id info hinfo
  exact ⟨a, (hgrows.items .artifact).subset ha, hid, hsame⟩

/-- The data of stored artifacts. -/
theorem dataStored_dataMap (lib : ClientLibrary) {s : Store} {artifacts : List Artifact}
    (hstored : AllStored s artifacts) : DataStored lib s (SectionIo.dataMap lib artifacts) := by
  have hloop : ∀ data : OrderedMap Int ArtifactInfo, DataStored lib s data →
      DataStored lib s (artifacts.foldl
        (fun artifactDataMap artifact =>
          if artifact.id.getD 0 = 0 then artifactDataMap
          else artifactDataMap.set (artifact.id.getD 0) (SectionIo.artifactInfo lib artifact))
        data) := by
    induction artifacts with
    | nil => exact fun _ => id
    | cons a artifacts ih =>
        intro data hdata
        rw [List.foldl_cons]
        apply ih fun x hx => hstored x (List.mem_cons_of_mem a hx)
        split
        next => exact hdata
        next hid =>
          intro id info hinfo
          rw [OrderedMap.get_set] at hinfo
          split at hinfo
          next hsame =>
            cases hinfo
            refine ⟨a, hstored a List.mem_cons_self, ?_, rfl⟩
            cases ha : a.id with
            | none => exact (hid (by rw [ha]; rfl)).elim
            | some i =>
                rw [hsame, ha]
                rfl
          next => exact hdata id info hinfo
  exact hloop .empty fun id info hinfo => by cases hinfo

/-! ## The invariant -/

/-- A table knows what is stored, and will be told of what is stored. -/
structure SectionHolds (lib : ClientLibrary) (s : Store) (table : SectionIo) : Prop where
  data : DataStored lib s table.artifactDataMap
  reply : ∀ artifacts, table.loading = .answered (.ok artifacts) → AllStored s artifacts

/-- A load will be told of the stored execution, if it was stored at first, and of the
events that it covers. -/
structure LoadHolds (n : Int) (first s : Store) (load : Load) : Prop where
  executions : ∀ executions, load.executions = some (.ok executions) →
    ∀ x ∈ executions, x ∈ s.contents.items .execution ∧ x.id = some n
  found : Present first.contents .execution n → load.executions ≠ some (.ok [])
  events : ∀ events, load.events = some (.ok events) → Covers n first s events

/-- Types of which the ids and the names are stored. -/
def AllTypesStored (s : Store) (types : List TypeRecord) : Prop :=
  ∀ type ∈ types, TypeStored s type.getId type.getName

/-- What holds of the page of an execution, since it was opened over a store. -/
structure DetailsHolds (lib : ClientLibrary) (n : Int) (first : Store) (w : DetailsWorld) :
    Prop where
  grows : first.Grows w.store
  execution : ∀ x, w.page.execution = some x →
    x ∈ w.store.contents.items .execution ∧ x.id = some n
  events : ∀ byType, w.page.events = some byType →
    ∃ events, Covers n first w.store events ∧ byType = parseEventsByType (some events)
  types : ∀ map, w.page.artifactTypeMap = some map →
    ∀ id type, map.get id = some type → TypeStored w.store id type.getName
  sections : ∀ code s, w.page.sections code = some s → SectionHolds lib w.store s
  mounted : ∀ byType, w.page.events = some byType →
    ∀ code ∈ ExecutionDetails.shownTypes, (w.page.sections code).isSome
  loads : ∀ load ∈ w.loads, LoadHolds n first w.store load
  replies : ∀ types, some (.ok types) ∈ w.typeRequests → AllTypesStored w.store types

section Steps

variable {host : Host} {lib : DetailsLibrary} {props : DetailsProps} {E : Effect api Store}
  {n : Int} {first : Store} {w v : DetailsWorld}

theorem detailsHolds_opened (lib : ClientLibrary) (n : Int) (s : Store) :
    DetailsHolds lib n s (.opened s) where
  grows := Contents.Grows.refl _
  execution _ hx := by cases hx
  events _ hevents := by cases hevents
  types _ htypes := by cases htypes
  sections _ _ hsection := by cases hsection
  mounted _ hevents := by cases hevents
  loads _ hload := absurd hload List.not_mem_nil
  replies _ hreply := absurd hreply List.not_mem_nil

/-- What is right stays right while the store grows. -/
theorem DetailsHolds.outside {t : Store} (hw : DetailsHolds lib.toClientLibrary n first w)
    (hgrows : w.store.Grows t) :
    DetailsHolds lib.toClientLibrary n first { w with store := t } where
  grows := hw.grows.trans hgrows
  execution x hx := (hw.execution x hx).imp_left fun hmem => (hgrows.items .execution).subset hmem
  events byType hevents := by
    obtain ⟨events, hcovers, hsame⟩ := hw.events byType hevents
    exact ⟨events, hcovers.grows hgrows, hsame⟩
  types map htypes id type hget := (hw.types map htypes id type hget).grows hgrows
  sections code s hsection :=
    ⟨(hw.sections code s hsection).data.grows hgrows, fun artifacts hreply =>
      ((hw.sections code s hsection).reply artifacts hreply).grows hgrows⟩
  mounted := hw.mounted
  loads load hload :=
    ⟨fun executions hreply x hx =>
        ((hw.loads load hload).executions executions hreply x hx).imp_left
          fun hmem => (hgrows.items .execution).subset hmem,
      (hw.loads load hload).found,
      fun events hreply => ((hw.loads load hload).events events hreply).grows hgrows⟩
  replies types hreply type htype := (hw.replies types hreply type htype).grows hgrows

/-- Errors on the page do not matter. -/
theorem DetailsHolds.showPageError (hw : DetailsHolds lib.toClientLibrary n first w)
    (message : String) :
    DetailsHolds lib.toClientLibrary n first { w with page := w.page.showPageError message } where
  grows := hw.grows
  execution := hw.execution
  events := hw.events
  types := hw.types
  sections := hw.sections
  mounted := hw.mounted
  loads := hw.loads
  replies := hw.replies

/-- The requests change to ones that are right. -/
theorem DetailsHolds.withRequests (hw : DetailsHolds lib.toClientLibrary n first w)
    {loads : List Load} {typeRequests : List (Option (Except Thrown (List TypeRecord)))}
    (hloads : ∀ load ∈ loads, LoadHolds n first w.store load)
    (hreplies : ∀ types, some (.ok types) ∈ typeRequests → AllTypesStored w.store types) :
    DetailsHolds lib.toClientLibrary n first
      { w with loads := loads, typeRequests := typeRequests } where
  grows := hw.grows
  execution := hw.execution
  events := hw.events
  types := hw.types
  sections := hw.sections
  mounted := hw.mounted
  loads := hloads
  replies := hreplies

/-- The types change to ones that are right. -/
theorem DetailsHolds.withTypes (hw : DetailsHolds lib.toClientLibrary n first w)
    {map : OrderedMap Int TypeRecord}
    (hmap : ∀ id type, map.get id = some type → TypeStored w.store id type.getName) :
    DetailsHolds lib.toClientLibrary n first
      { w with page := { w.page with artifactTypeMap := some map } } where
  grows := hw.grows
  execution := hw.execution
  events := hw.events
  types _ hsame := Option.some.inj hsame ▸ hmap
  sections := hw.sections
  mounted := hw.mounted
  loads := hw.loads
  replies := hw.replies

/-- A table changes to one that is right. -/
theorem DetailsHolds.setSection (hw : DetailsHolds lib.toClientLibrary n first w)
    {code : EventCode} {s : SectionIo} (hs : SectionHolds lib.toClientLibrary w.store s) :
    DetailsHolds lib.toClientLibrary n first { w with page := w.page.setSection code s } where
  grows := hw.grows
  execution := hw.execution
  events := hw.events
  types := hw.types
  sections other s' hsection := by
    change (w.page.setSection code s).sections other = some s' at hsection
    rw [ExecutionDetails.sections_setSection] at hsection
    split at hsection
    · exact Option.some.inj hsection ▸ hs
    · exact hw.sections other s' hsection
  mounted byType hevents other hshown := by
    show ((w.page.setSection code s).sections other).isSome
    rw [ExecutionDetails.sections_setSection]
    split
    · rfl
    · exact hw.mounted byType hevents other hshown
  loads := hw.loads
  replies := hw.replies

/-- An execution is shown with its events. -/
theorem DetailsHolds.withExecution (hw : DetailsHolds lib.toClientLibrary n first w)
    {x : Execution} {events : List Event}
    (hx : x ∈ w.store.contents.items .execution ∧ x.id = some n)
    (hcovers : Covers n first w.store events) :
    DetailsHolds lib.toClientLibrary n first
      { w with
        page := w.page.withExecution host lib.toClientLibrary x
          (parseEventsByType (some events)) } where
  grows := hw.grows
  execution y hy := Option.some.inj hy ▸ hx
  events byType hevents := ⟨events, hcovers, (Option.some.inj hevents).symm⟩
  types := hw.types
  sections code s hsection := by
    change w.page.mountSections _ code = some s at hsection
    rw [ExecutionDetails.mountSections] at hsection
    split at hsection
    next =>
      obtain rfl := Option.some.inj hsection
      cases hkept : w.page.sections code with
      | none =>
        exact ⟨fun id info hinfo => (by cases hinfo), fun artifacts hreply => by cases hreply⟩
      | some s => exact hw.sections code s hkept
    next => cases hsection
  mounted byType hevents code hshown := by
    show (w.page.mountSections _ code).isSome
    rw [ExecutionDetails.mountSections, if_pos hshown]
    rfl
  loads := hw.loads
  replies := hw.replies

/-- A load that is answered shows what it was told. -/
theorem DetailsHolds.received (hw : DetailsHolds lib.toClientLibrary n first w)
    {executions : List Execution} {events : List Event}
    (hload : LoadHolds n first w.store ⟨some (.ok executions), some (.ok events)⟩) :
    DetailsHolds lib.toClientLibrary n first
      { w with
        page := w.page.received host lib.toClientLibrary props lib.undefinedError executions
          events } := by
  have hcovers := hload.events events rfl
  have hexecutions := hload.executions executions rfl
  cases executions with
  | nil =>
      simp only [ExecutionDetails.received, List.head?_nil, if_true, List.length_nil,
        Nat.not_lt_zero, if_false]
      exact (hw.showPageError _).showPageError _
  | cons x rest =>
      simp only [ExecutionDetails.received, List.head?_cons, List.cons_ne_nil, if_false]
      split
      next => exact (hw.showPageError _).withExecution (hexecutions x List.mem_cons_self) hcovers
      next => exact hw.withExecution (hexecutions x List.mem_cons_self) hcovers

/-- One step keeps what holds. -/
theorem DetailsHolds.step (hE : Sound E) (hcollects : lib.CollectsById)
    (hid : props.numberId = some n) (hw : DetailsHolds lib.toClientLibrary n first w)
    (hstep : DetailsStep host lib props E w v) : DetailsHolds lib.toClientLibrary n first v := by
  cases hstep with
  | outside t hgrows => exact hw.outside hgrows
  | load hid' hnonneg =>
      refine hw.withRequests (fun load hload => ?_) fun types hreply =>
        hw.replies types (by simpa using hreply)
      cases List.mem_append.mp hload with
      | inl hold => exact hw.loads load hold
      | inr hnew =>
          rw [List.mem_singleton.mp hnew]
          exact ⟨fun _ hreply => (by cases hreply), fun _ hreply => (by cases hreply),
            fun _ hreply => (by cases hreply)⟩
  | invalid hid' =>
      exact (hw.showPageError _).withRequests hw.loads fun types hreply =>
        hw.replies types (by simpa using hreply)
  | @executionsAnswered index load m reply t code hload hpending hid' heffect =>
      obtain rfl : n = m := Option.some.inj (hid.symm.trans hid')
      have hread : Call.IsRead (.getItemsByID .execution [n]) := trivial
      obtain rfl : t = w.store := hE.read hread heffect
      refine hw.withRequests (fun load' hload' => ?_) hw.replies
      cases List.mem_or_eq_of_mem_set hload' with
      | inl hold => exact hw.loads load' hold
      | inr hnew =>
          rw [hnew]
          have hfiltered : ∀ executions, reply = .ok executions → ∀ x, x ∈ executions ↔
              x ∈ w.store.contents.items .execution ∧ x.id = some n := by
            rintro executions rfl x
            have hdoc := hE.accepted (.getItemsByID .execution [n]) _ _ _ heffect
            rw [hdoc.2.mem_iff, List.mem_filter]
            simp [isAmong]
          refine ⟨fun executions hreply x hx => ?_, fun hfirst hnone => ?_,
            (hw.loads load (List.mem_of_getElem? hload)).events⟩
          · cases reply with
            | error message => cases hreply
            | ok result =>
                cases hreply
                exact (hfiltered executions rfl x).mp hx
          · obtain ⟨x, hx, hxid⟩ := hfirst
            cases reply with
            | error message => cases hnone
            | ok result =>
                cases hnone
                exact absurd ((hfiltered [] rfl x).mpr
                  ⟨(hw.grows.items .execution).subset hx, hxid⟩) List.not_mem_nil
  | @eventsAnswered index load m reply t code hload hpending hid' heffect =>
      obtain rfl : n = m := Option.some.inj (hid.symm.trans hid')
      have hread : Call.IsRead (.getEventsByExecutionIDs [n]) := trivial
      obtain rfl : t = w.store := hE.read hread heffect
      refine hw.withRequests (fun load' hload' => ?_) hw.replies
      cases List.mem_or_eq_of_mem_set hload' with
      | inl hold => exact hw.loads load' hold
      | inr hnew =>
          rw [hnew]
          obtain ⟨hexecutions, hfound, -⟩ := hw.loads load (List.mem_of_getElem? hload)
          refine ⟨hexecutions, hfound, fun events hreply => ?_⟩
          cases reply with
          | error message => cases hreply
          | ok result =>
              cases hreply
              have hdoc := hE.accepted (.getEventsByExecutionIDs [n]) _ _ _ heffect
              exact ⟨((eventsOf_sublist n hw.grows).subperm).trans hdoc.2.symm.subperm,
                hdoc.2.subperm⟩
  | @typesAnswered index reply t code hpending heffect =>
      have hread : Call.IsRead (.getTypes .artifact) := trivial
      obtain rfl : t = w.store := hE.read hread heffect
      refine hw.withRequests hw.loads fun types hreply => ?_
      cases List.mem_or_eq_of_mem_set hreply with
      | inl hold => exact hw.replies types hold
      | inr hnew =>
          cases reply with
          | error message => cases hnew
          | ok result =>
              cases hnew
              have hdoc := hE.accepted (.getTypes .artifact) _ _ _ heffect
              intro type htype
              obtain ⟨stored, hstored, rfl⟩ := List.mem_map.mp (hdoc.2.mem_iff.mp htype)
              exact ⟨stored, hstored, rfl, rfl⟩
  | loaded hload =>
      exact (hw.received (hw.loads _ (List.mem_of_getElem? hload))).withRequests
        (fun load hmem => hw.loads load (List.mem_of_mem_eraseIdx hmem)) hw.replies
  | rejected hload herr =>
      exact (hw.showPageError _).withRequests
        (fun load hmem => hw.loads load (List.mem_of_mem_eraseIdx hmem)) hw.replies
  | typesLoaded hreply =>
      have hstored := hw.replies _ (List.mem_of_getElem? hreply)
      refine (DetailsHolds.withTypes hw fun id type hget => ?_).withRequests hw.loads
        fun types hmem => hw.replies types (List.mem_of_mem_eraseIdx hmem)
      obtain ⟨hmem, rfl⟩ := hcollects _ id type hget
      exact hstored type hmem
  | typesFailed hreply =>
      exact (hw.showPageError _).withRequests hw.loads fun types hmem =>
        hw.replies types (List.mem_of_mem_eraseIdx hmem)
  | @sectionAnswered type s artifactIds reply t code hsection hsent heffect =>
      have hread : Call.IsRead (.getItemsByID .artifact artifactIds) := trivial
      obtain rfl : t = w.store := hE.read hread heffect
      refine hw.setSection ⟨(hw.sections type s hsection).data, fun artifacts hreply x hx => ?_⟩
      cases reply with
      | error message => cases hreply
      | ok result =>
          cases hreply
          have hdoc := hE.accepted (.getItemsByID .artifact artifactIds) _ _ _ heffect
          exact (List.mem_filter.mp (hdoc.2.mem_iff.mp hx)).1
  | @sectionLoaded type s reply hsection hanswered =>
      have hs := hw.sections type s hsection
      apply hw.setSection
      cases reply with
      | error err => exact ⟨hs.data, fun _ hreply => by cases hreply⟩
      | ok artifacts =>
          exact ⟨dataStored_dataMap _ (hs.reply artifacts hanswered), fun _ hreply => by
            cases hreply⟩

theorem DetailsHolds.steps (hE : Sound E) (hcollects : lib.CollectsById)
    (hid : props.numberId = some n) (hw : DetailsHolds lib.toClientLibrary n first w)
    (hsteps : Relation.ReflTransGen (DetailsStep host lib props E) w v) :
    DetailsHolds lib.toClientLibrary n first v := by
  induction hsteps with
  | refl => exact hw
  | tail _ hstep ih => exact ih.step hE hcollects hid hstep

/-! ## The tables -/

/-- The ids of the artifacts of the events of one type. -/
def idsOf (code : EventCode) (events : List Event) : List Int :=
  (events.filter fun e => eventCode e.type = code).map fun e => e.artifactId.getD 0

theorem idsOf_subperm (code : EventCode) {events events' : List Event}
    (hsub : events.Subperm events') : (idsOf code events).Subperm (idsOf code events') := by
  obtain ⟨events'', hperm, hsublist⟩ := hsub
  exact ⟨idsOf code events'', (hperm.filter _).map _, (hsublist.filter _).map _⟩

/-- A row has only its id, or it has what is stored of its artifact. -/
def RowRight (lib : ClientLibrary) (s : Store) (row : ArtifactRow) : Prop :=
  row = ⟨row.id, .text "", none, none⟩ ∨
    ∃ a ∈ s.contents.items .artifact, a.id = some row.id ∧
      row.name = (SectionIo.artifactInfo lib a).name.or (.text "") ∧
      row.uri = some (a.uri.getD "") ∧ ∀ type, row.type = some type →
        ∃ t ∈ s.contents.types .artifact, a.typeId = some t.id ∧ t.name = type

theorem DetailsHolds.rowRight (hw : DetailsHolds lib.toClientLibrary n first w)
    {code : EventCode} {s : SectionIo} (hsection : w.page.sections code = some s) (id : Int) :
    RowRight lib.toClientLibrary w.store (s.row w.page.artifactTypeMap id) ∧
      (s.row w.page.artifactTypeMap id).id = id := by
  cases hdata : s.artifactDataMap.get id with
  | none =>
      rw [SectionIo.row, hdata]
      exact ⟨Or.inl rfl, rfl⟩
  | some info =>
      obtain ⟨a, ha, haid, rfl⟩ := (hw.sections code s hsection).data id info hdata
      rw [SectionIo.row, hdata]
      refine ⟨Or.inr ⟨a, ha, haid, rfl, rfl, fun type htype => ?_⟩, rfl⟩
      obtain ⟨record, hrecord, rfl⟩ := Option.map_eq_some_iff.mp htype
      split at hrecord
      next => cases hrecord
      next htypeId =>
        obtain ⟨map, hmap, hget⟩ := Option.bind_eq_some_iff.mp hrecord
        obtain ⟨t, ht, hid, hname⟩ := hw.types map hmap _ record hget
        refine ⟨t, ht, ?_, hname⟩
        simp only [SectionIo.artifactInfo] at htypeId hid
        cases htid : a.typeId with
        | none => exact (htypeId (by rw [htid]; rfl)).elim
        | some i =>
            rw [hid, htid]
            rfl

/-- A table has a row for each event of its type that it was told of, and the rows are right. -/
theorem DetailsHolds.tables (hw : DetailsHolds lib.toClientLibrary n first w) {code : EventCode}
    {rows : List ArtifactRow} (hrows : (code, rows) ∈ w.page.tables) :
    (idsOf code (eventsOf n first)).Subperm (rows.map ArtifactRow.id) ∧
      (rows.map ArtifactRow.id).Subperm (idsOf code (eventsOf n w.store)) ∧
      ∀ row ∈ rows, RowRight lib.toClientLibrary w.store row := by
  rw [ExecutionDetails.tables] at hrows
  split at hrows
  next byType hexecution hevents =>
    obtain ⟨code', hshown, heq⟩ := List.mem_map.mp hrows
    obtain ⟨rfl, rfl⟩ := Prod.mk.inj heq
    obtain ⟨table, hsection⟩ := Option.isSome_iff_exists.mp
      (hw.mounted byType hevents code' hshown)
    obtain ⟨events, hcovers, rfl⟩ := hw.events byType hevents
    rw [hsection, Option.map_some, Option.getD_some, SectionIo.rows]
    have hids : ((parseEventsByType (some events) code').map
        (table.row w.page.artifactTypeMap)).map ArtifactRow.id = idsOf code' events := by
      rw [List.map_map, parseEventsByType_some]
      exact (List.map_congr_left fun id _ => (hw.rowRight hsection id).2).trans (List.map_id _)
    rw [hids]
    refine ⟨idsOf_subperm code' hcovers.1, idsOf_subperm code' hcovers.2, fun row hrow => ?_⟩
    obtain ⟨id, -, rfl⟩ := List.mem_map.mp hrow
    exact (hw.rowRight hsection id).1
  next => cases hrows

/-- **The tables show the store.** However the page is loaded and its requests are answered,
while other clients add to the store: an execution that is shown is the stored one; a table
has a row for each event of its type, for all that were stored when the page was opened and
none that is not stored; and a row has nothing but the id, or the name, address and type
that are stored of the artifact. -/
theorem tables_show_store (hE : Sound E) (hcollects : lib.CollectsById)
    (hid : props.numberId = some n) {s : Store}
    (hsteps : Relation.ReflTransGen (DetailsStep host lib props E) (.opened s) w) :
    (∀ x, w.page.execution = some x → w.store.findItem .execution n = some x) ∧
      ∀ code rows, (code, rows) ∈ w.page.tables →
        (idsOf code (eventsOf n s)).Subperm (rows.map ArtifactRow.id) ∧
        (rows.map ArtifactRow.id).Subperm (idsOf code (eventsOf n w.store)) ∧
        ∀ row ∈ rows, RowRight lib.toClientLibrary w.store row := by
  have hw := (detailsHolds_opened lib.toClientLibrary n s).steps hE hcollects hid hsteps
  refine ⟨fun x hx => ?_, fun code rows hrows => hw.tables hrows⟩
  obtain ⟨hmem, hxid⟩ := hw.execution x hx
  exact (Keyed.find_eq_some_iff (w.store.wellFormed.itemIds .execution)).mpr ⟨hmem, hxid⟩

/-! ## When there are tables -/

/-- There is an execution on the page, with its events. -/
def Shows (page : ExecutionDetails) : Prop := page.execution.isSome ∧ page.events.isSome

/-- Then there are all of the tables. -/
theorem Shows.exists_rows {page : ExecutionDetails} (hshows : Shows page) {code : EventCode}
    (hcode : code ∈ ExecutionDetails.shownTypes) : ∃ rows, (code, rows) ∈ page.tables := by
  obtain ⟨x, hx⟩ := Option.isSome_iff_exists.mp hshows.1
  obtain ⟨byType, hbyType⟩ := Option.isSome_iff_exists.mp hshows.2
  rw [ExecutionDetails.tables, hx, hbyType]
  exact ⟨_, List.mem_map_of_mem hcode⟩

/-- A load that is told of an execution shows it, and one that is not leaves what is shown. -/
theorem shows_received {page : ExecutionDetails} {executions : List Execution}
    {events : List Event} (hshows : Shows page ∨ executions ≠ []) :
    Shows (page.received host lib.toClientLibrary props lib.undefinedError executions
      events) := by
  cases executions with
  | nil => exact hshows.resolve_right fun hnot => hnot rfl
  | cons x rest => exact ⟨rfl, rfl⟩

/-- What is shown stays, or changes to another. -/
theorem Shows.step (hshows : Shows w.page) (hstep : DetailsStep host lib props E w v) :
    Shows v.page := by
  cases hstep with
  | loaded hload => exact shows_received (Or.inl hshows)
  | _ => exact hshows

theorem Shows.steps (hshows : Shows w.page)
    (hsteps : Relation.ReflTransGen (DetailsStep host lib props E) w v) : Shows v.page := by
  induction hsteps with
  | refl => exact hshows
  | tail _ hstep ih => exact ih.step hstep

/-- **Loading shows the execution.** If the execution was stored when the page was opened,
then a load of which both replies are right shows it, and it is shown from then on. -/
theorem DetailsHolds.shows (hw : DetailsHolds lib.toClientLibrary n first w)
    (hfirst : Present first.contents .execution n) {index : Nat} {executions : List Execution}
    {events : List Event}
    (hload : w.loads[index]? = some ⟨some (.ok executions), some (.ok events)⟩)
    (hlater : Relation.ReflTransGen (DetailsStep host lib props E)
      (w.withLoaded host lib props index executions events) v) : Shows v.page := by
  have hfound : executions ≠ [] := by
    rintro rfl
    exact (hw.loads _ (List.mem_of_getElem? hload)).found hfirst rfl
  have hloaded : Shows (w.withLoaded host lib props index executions events).page :=
    shows_received (Or.inr hfound)
  exact hloaded.steps hlater

end Steps

/-! ## A page that is loaded at once -/

/-- Collecting types by their ids, as the page of executions does. -/
def detailsLibrary : DetailsLibrary where
  toClientLibrary := plainLibrary
  collectTypes := ExecutionList.typesById
  undefinedError := ⟨"Cannot read property 'getPropertiesMap' of undefined", none⟩

theorem detailsLibrary_collectsById : detailsLibrary.CollectsById := by
  intro types
  have hloop : ∀ (later : List TypeRecord) (map : OrderedMap Int TypeRecord),
      (∀ id type, map.get id = some type → type ∈ types ∧ type.getId = id) → later ⊆ types →
      ∀ id type, (later.foldl (fun map type => map.set type.getId type) map).get id = some type →
        type ∈ types ∧ type.getId = id := by
    intro later
    induction later with
    | nil => exact fun _ hmap _ => hmap
    | cons first later ih =>
        intro map hmap hlater
        refine ih _ (fun id type hget => ?_) fun type hmem =>
          hlater (List.mem_cons_of_mem first hmem)
        rw [OrderedMap.get_set] at hget
        split at hget
        next hsame =>
          obtain rfl := Option.some.inj hget
          exact ⟨hlater List.mem_cons_self, hsame.symm⟩
        next => exact hmap id type hget
  exact hloop types .empty (fun id type hget => by cases hget) fun _ => id

def propsOne : DetailsProps := ⟨"run", "1", some 1⟩

/-- The executions that are found for the page of the first. -/
def foundOne (s : Store) : List Execution :=
  (s.contents.items .execution).filter fun x => isAmong [1] x.id

/-- The page of the first execution, when a load has both of its replies. -/
def answeredOnce (s : Store) : DetailsWorld where
  store := s
  page := .init
  loads := [⟨some (.ok (foundOne s)), some (.ok (eventsOf 1 s))⟩]
  typeRequests := [none]

theorem steps_answeredOnce (s : Store) :
    Relation.ReflTransGen (DetailsStep plainHost detailsLibrary propsOne inMemory.effect)
      (.opened s) (answeredOnce s) := by
  let first : DetailsWorld := ⟨s, .init, [⟨none, none⟩], [none]⟩
  let second : DetailsWorld := ⟨s, .init, [⟨some (.ok (foundOne s)), none⟩], [none]⟩
  have hload : DetailsStep plainHost detailsLibrary propsOne inMemory.effect (.opened s) first :=
    .load rfl (by decide)
  have hexecutions : DetailsStep plainHost detailsLibrary propsOne inMemory.effect first second :=
    @DetailsStep.executionsAnswered _ _ _ _ first 0 _ 1 (.ok (foundOne s)) s none rfl rfl rfl rfl
  have hevents : DetailsStep plainHost detailsLibrary propsOne inMemory.effect second
      (answeredOnce s) :=
    @DetailsStep.eventsAnswered _ _ _ _ second 0 _ 1 (.ok (eventsOf 1 s)) s none rfl rfl rfl rfl
  exact ((Relation.ReflTransGen.single hload).tail hexecutions).tail hevents

/-- And when it has shown them. -/
def loadedOnce (s : Store) : DetailsWorld :=
  (answeredOnce s).withLoaded plainHost detailsLibrary propsOne 0 (foundOne s) (eventsOf 1 s)

theorem steps_loadedOnce (s : Store) :
    Relation.ReflTransGen (DetailsStep plainHost detailsLibrary propsOne inMemory.effect)
      (.opened s) (loadedOnce s) :=
  (steps_answeredOnce s).tail (.loaded rfl)

/-- The page shows the output that a client of the service has logged. -/
theorem tables_show_store_output : ∃ rows,
    (.output, rows) ∈ (loadedOnce Service.loggedM.state).page.tables ∧
      rows.map ArtifactRow.id = [1] := by
  have hrows : (.output, [⟨1, .text "", none, none⟩]) ∈
      (loadedOnce Service.loggedM.state).page.tables := by
    have htables : (loadedOnce Service.loggedM.state).page.tables =
        [(.declaredInput, []), (.input, []), (.declaredOutput, []),
          (.output, [⟨1, .text "", none, none⟩])] := rfl
    rw [htables]
    simp
  obtain ⟨hall, -⟩ := (tables_show_store inMemory_available.toLawful.sound
    detailsLibrary_collectsById rfl (steps_loadedOnce Service.loggedM.state)).2 _ _ hrows
  have hids : idsOf .output (eventsOf 1 Service.loggedM.state) = [1] := rfl
  rw [hids] at hall
  exact ⟨_, hrows, rfl⟩

/-! ## Logged lineage -/

section Logged

variable {Ref : Type} [DecidableEq Ref] {objects : Ref → Sdk.ArtifactObject}
  {condition : Sdk.World Ref → Sdk.Action Ref → Prop} {start u v : Sdk.World Ref}
  {calls : List (Sdk.Action Ref × Except Sdk.PyError Unit)} {action : Sdk.Action Ref}
  {type : EventType} {self : Sdk.Execution} {ref : Ref}

/-- The object has an id, and there is an event of its artifact and the execution, which is
stored. -/
structure Logged (u : Sdk.World Ref) (type : EventType) (self : Sdk.Execution) (ref : Ref)
    (id : Int) : Prop where
  assigned : u.ids ref = some id
  event : ∃ e ∈ u.store.contents.events,
    e.artifactId = some id ∧ e.executionId = self.id ∧ e.type = type
  execution : ∃ n, self.id = some n ∧ Present u.store.contents .execution n

/-- A call that logs an object and returns leaves its id and an event. -/
theorem step_logged (hstep : Sdk.Step objects u action (.ok ()) v)
    (hlogs : action.logs = some (type, self, ref)) : ∃ id, Logged v type self ref id := by
  obtain ⟨m, hrun, hids⟩ := hstep.logAs hlogs
  obtain ⟨t, hexit, hevent⟩ := Sdk.runs_logAs_ok hrun
  have hassigned : ∃ id, m = some id := by
    generalize u.ids ref = l at hexit
    cases hexit with
    | known htype hcheck hone => exact ⟨_, rfl⟩
    | duplicate htype hser hlist hfound => exact ⟨_, rfl⟩
    | stored htype hser hlist hnone hput hmember => exact ⟨_, rfl⟩
  obtain ⟨id, rfl⟩ := hassigned
  exact ⟨id, by rw [hids, Function.update_self], Sdk.recorded_event hevent,
    (Sdk.recorded_linked hevent).2⟩

/-- And no later call takes them away. -/
theorem calls_logged (hcalls : Sdk.Calls objects condition start calls u)
    (hreturned : (action, .ok ()) ∈ calls) (hlogs : action.logs = some (type, self, ref)) :
    ∃ id, Logged u type self ref id := by
  induction hcalls with
  | nil => cases hreturned
  | snoc _ _ hstep ih =>
      cases List.mem_append.mp hreturned with
      | inl hearlier =>
          obtain ⟨id, hid, ⟨e, he, hends⟩, n, hn, hstored⟩ := ih hearlier
          exact ⟨id, hstep.ids hid, ⟨e, hstep.links.events.subset he, hends⟩, n, hn,
            hstep.present hstored⟩
      | inr hlast =>
          obtain ⟨rfl, rfl⟩ := Prod.mk.inj (List.mem_singleton.mp hlast)
          exact step_logged hstep hlogs

/-- **What was logged is shown.** A client logs artifacts as inputs and outputs of its
executions, where calls may be retried, raise, or have their effect without a reply. Once a
call has returned, whoever opens the page of the execution afterwards finds the id of the
artifact in the table of inputs or outputs, as soon as there is a table. There is one as
soon as both requests of a load have been answered without an error, and from then on. -/
theorem logged_is_shown {host : Host} {lib : DetailsLibrary} {props : DetailsProps}
    {E : Effect api Store} {n : Int} {w : DetailsWorld} (hE : Sound E)
    (hcollects : lib.CollectsById) (hid : props.numberId = some n)
    (hcalls : Sdk.Calls objects condition start calls u) (hreturned : (action, .ok ()) ∈ calls)
    (hlogs : action.logs = some (type, self, ref)) (hself : self.id = some n)
    (hsteps : Relation.ReflTransGen (DetailsStep host lib props E) (.opened u.store) w) :
    ∃ id, u.ids ref = some id ∧
      (∀ rows, (eventCode type, rows) ∈ w.page.tables → ∃ row ∈ rows, row.id = id) ∧
      ∀ index executions events,
        w.loads[index]? = some ⟨some (.ok executions), some (.ok events)⟩ → ∀ v,
          Relation.ReflTransGen (DetailsStep host lib props E)
            (w.withLoaded host lib props index executions events) v →
          ∃ rows, (eventCode type, rows) ∈ v.page.tables ∧ ∃ row ∈ rows, row.id = id := by
  obtain ⟨id, hassigned, ⟨e, he, hartifact, hexecution, rfl⟩, m, hm, hstored⟩ :=
    calls_logged hcalls hreturned hlogs
  obtain rfl : n = m := Option.some.inj (hself.symm.trans hm)
  have hmem : id ∈ idsOf (eventCode e.type) (eventsOf n u.store) := by
    refine List.mem_map.mpr ⟨e, List.mem_filter.mpr ⟨List.mem_filter.mpr ⟨he, ?_⟩, ?_⟩, ?_⟩
    · simp [isAmong, hexecution, hself]
    · exact decide_eq_true rfl
    · rw [hartifact, Option.getD_some]
  have hopened := detailsHolds_opened lib.toClientLibrary n u.store
  have hrow : ∀ {v}, Relation.ReflTransGen (DetailsStep host lib props E) (.opened u.store) v →
      ∀ rows, (eventCode e.type, rows) ∈ v.page.tables → ∃ row ∈ rows, row.id = id := by
    intro v hv rows hrows
    have hall := ((hopened.steps hE hcollects hid hv).tables hrows).1
    exact List.mem_map.mp (hall.subset hmem)
  have hcode : eventCode e.type ∈ ExecutionDetails.shownTypes := by
    cases action with
    | execution => cases hlogs
    | logInput self' artifact =>
        obtain ⟨htype, -⟩ := Prod.mk.inj (Option.some.inj hlogs)
        rw [← htype]
        decide
    | logOutput self' artifact =>
        obtain ⟨htype, -⟩ := Prod.mk.inj (Option.some.inj hlogs)
        rw [← htype]
        decide
  refine ⟨id, hassigned, hrow hsteps, fun index executions events hload v hlater => ?_⟩
  have hw := hopened.steps hE hcollects hid hsteps
  obtain ⟨rows, hrows⟩ := (hw.shows hstored hload hlater).exists_rows hcode
  have hv := (hsteps.tail (.loaded hload)).trans hlater
  exact ⟨rows, hrows, hrow hv rows hrows⟩

/-- The page shows the model that the client has logged as an output. -/
theorem logged_is_shown_model : ∃ rows,
    (eventCode .output, rows) ∈ (loadedOnce Sdk.attributed.state).page.tables ∧
      ∃ row ∈ rows, row.id = 1 := by
  have houtput : Sdk.Step (fun _ : Unit => Sdk.model)
      ⟨Sdk.constructed, fun _ => none, [Sdk.trainer]⟩ (.logOutput Sdk.trainer ()) (.ok ())
      ⟨Sdk.attributed, Function.update (fun _ => none) () (some 1), [Sdk.trainer]⟩ :=
    .loggedOutput (List.mem_singleton_self _)
      ((Procedure.runs_of_run Sdk.answering rfl).mono fun _ _ _ _ => Sdk.scripted_recorded)
  have hcalls : Sdk.Calls (fun _ : Unit => Sdk.model) (fun _ _ => True)
      ⟨Sdk.prepared, fun _ => none, []⟩ _ _ :=
    (Sdk.Calls.nil.snoc trivial Sdk.step_constructTrainer).snoc trivial houtput
  obtain ⟨id, hid, -, hshown⟩ := logged_is_shown inMemory_available.toLawful.sound
    detailsLibrary_collectsById rfl hcalls (by simp)
    (rfl : (Sdk.Action.logOutput Sdk.trainer ()).logs = some (.output, Sdk.trainer, ())) rfl
    (steps_answeredOnce Sdk.attributed.state)
  have hassigned : some 1 = some id := hid
  obtain rfl := Option.some.inj hassigned
  exact hshown 0 _ _ rfl _ .refl

end Logged

end KfMetadata.Frontend
