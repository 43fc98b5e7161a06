/-
# The page of an execution

The page of an execution shows which artifacts it was declared to use and produce, and
which ones it did. It fetches the execution, its events and the types of artifacts; each
table fetches its artifacts once, when it appears. The page may be loaded again at any
time, also while an earlier load is under way, and other clients go on adding to the store.
Requests are evaluated and answered in any order.

Whatever the order, a table has a row for each event of its kind: for all that were stored
when the page was opened, and for none that is not stored yet. What a row says of its
artifact is what the store says.
-/

import KfMetadata.Frontend.LastRequest
import KfMetadata.Mlmd.Api

namespace KfMetadata.Frontend

open Mlmd Remote

/-! ## Events by their type -/

/-- The types of events that the page knows. -/
inductive EventCode
  | unknown
  | declaredOutput
  | declaredInput
  | input
  | output
  | internalInput
  | internalOutput
  deriving DecidableEq, Repr

/-- The type that the page sees of a stored event. -/
def eventCode : EventType → EventCode
  | .unknown => .unknown
  | .declaredOutput => .declaredOutput
  | .declaredInput => .declaredInput
  | .input => .input
  | .output => .output

/-- The ids of the artifacts of each type of event. -/
abbrev EventsByType : Type := EventCode → List Int

/-- A field that is not set is read as its default, so that no event is passed over. -/
def parseEventsByType (response : Option (List Event)) : EventsByType :=
  match response with
  | none => fun _ => []
  | some events => events.foldl
      (fun byType e => Function.update byType (eventCode e.type)
        (byType (eventCode e.type) ++ [e.artifactId.getD 0]))
      fun _ => []

/-- Each event is in the list of its type, once. -/
theorem parseEventsByType_some (events : List Event) (code : EventCode) :
    parseEventsByType (some events) code =
      (events.filter fun e => eventCode e.type = code).map fun e => e.artifactId.getD 0 := by
  have hloop : ∀ byType : EventsByType, events.foldl
      (fun byType e => Function.update byType (eventCode e.type)
        (byType (eventCode e.type) ++ [e.artifactId.getD 0])) byType code =
      byType code ++
        (events.filter fun e => eventCode e.type = code).map fun e => e.artifactId.getD 0 := by
    induction events with
    | nil => simp
    | cons e events ih =>
        intro byType
        rw [List.foldl_cons, ih, Function.update_apply]
        by_cases hcode : eventCode e.type = code
        · simp [hcode]
        · simp [hcode, Ne.symm hcode]
  exact (hloop fun _ => []).trans (List.nil_append _)

/-! ## Tables -/

/-- What a table knows of an artifact. -/
structure ArtifactInfo where
  id : Int
  name : Cell
  typeId : Int
  uri : String

/-- The request of a table for its artifacts. -/
inductive Loading
  | sent (artifactIds : List Int)
  | answered (reply : Except Thrown (List Artifact))
  | done

structure SectionIo where
  loading : Loading
  artifactDataMap : OrderedMap Int ArtifactInfo

/-- A row of a table. -/
structure ArtifactRow where
  id : Int
  name : Cell
  type : Option String
  uri : Option String

namespace SectionIo

variable (lib : ClientLibrary)

def artifactInfo (artifact : Artifact) : ArtifactInfo where
  id := artifact.id.getD 0
  name := ((lib.getResourceProperty artifact .name false).or
    (lib.getResourceProperty artifact .name true)).or (.text "")
  typeId := artifact.typeId.getD 0
  uri := artifact.uri.getD ""

/-- The artifacts by their ids, but for those without one. -/
def dataMap (artifacts : List Artifact) : OrderedMap Int ArtifactInfo :=
  artifacts.foldl
    (fun artifactDataMap artifact =>
      if artifact.id.getD 0 = 0 then artifactDataMap
      else artifactDataMap.set (artifact.id.getD 0) (artifactInfo lib artifact))
    .empty

/-- The table when it appears. -/
def mounted (artifactIds : List Int) : SectionIo := ⟨.sent artifactIds, .empty⟩

/-- An error is passed over. -/
def received (s : SectionIo) : Except Thrown (List Artifact) → SectionIo
  | .ok artifacts => { s with loading := .done, artifactDataMap := dataMap lib artifacts }
  | .error _ => { s with loading := .done }

/-- The row of an artifact, of which little may be known. -/
def row (s : SectionIo) (artifactTypeMap : Option (OrderedMap Int TypeRecord)) (id : Int) :
    ArtifactRow :=
  match s.artifactDataMap.get id with
  | none => ⟨id, .text "", none, none⟩
  | some data =>
      let type := if data.typeId = 0 then none else artifactTypeMap.bind (·.get data.typeId)
      ⟨id, data.name.or (.text ""), type.map TypeRecord.getName, some data.uri⟩

def rows (s : SectionIo) (artifactTypeMap : Option (OrderedMap Int TypeRecord))
    (artifactIds : List Int) : List ArtifactRow := artifactIds.map (s.row artifactTypeMap)

end SectionIo

/-! ## The page -/

/-- What the page is addressed by. The number is what the id is parsed as. -/
structure DetailsProps where
  fullTypeName : String
  id : String
  numberId : Option Int

structure ExecutionDetails where
  execution : Option Execution
  events : Option EventsByType
  artifactTypeMap : Option (OrderedMap Int TypeRecord)
  /-- The title that a load has set. -/
  pageTitle : Option String
  pageErrors : List String
  /-- The tables that have appeared. -/
  sections : EventCode → Option SectionIo

namespace ExecutionDetails

variable (host : Host) (lib : ClientLibrary) (props : DetailsProps)

def init : ExecutionDetails := ⟨none, none, none, none, [], fun _ => none⟩

def showPageError (page : ExecutionDetails) (message : String) : ExecutionDetails :=
  { page with pageErrors := page.pageErrors ++ [message] }

/-- The tables of the page. -/
def shownTypes : List EventCode := [.declaredInput, .input, .declaredOutput, .output]

/-- The tables appear when there is something to show, and stay. -/
def mountSections (page : ExecutionDetails) (events : EventsByType) (code : EventCode) :
    Option SectionIo :=
  if code ∈ shownTypes then some ((page.sections code).getD (.mounted (events code))) else none

def setSection (page : ExecutionDetails) (code : EventCode) (s : SectionIo) : ExecutionDetails :=
  { page with sections := Function.update page.sections code (some s) }

theorem sections_setSection (page : ExecutionDetails) (code : EventCode) (s : SectionIo)
    (other : EventCode) :
    (page.setSection code s).sections other =
      if other = code then some s else page.sections other := Function.update_apply ..

/-- The title for an execution. -/
def titleOf (execution : Execution) : String :=
  let executionName := (lib.getResourceProperty execution .componentId false).or
    (lib.getResourceProperty execution .taskId true)
  if executionName.truthy then host.toText executionName else ""

/-- Show an execution with its events. -/
def withExecution (page : ExecutionDetails) (execution : Execution) (events : EventsByType) :
    ExecutionDetails :=
  { page with
    execution := some execution
    events := some events
    pageTitle := some (titleOf host lib execution)
    sections := page.mountSections events }

/-- What a load does when it is answered. Without an execution it shows an error, goes on,
and fails at reading a property of nothing. -/
def received (undefinedError : Thrown) (page : ExecutionDetails) (executions : List Execution)
    (events : List Event) : ExecutionDetails :=
  let page := if executions = [] then
      page.showPageError
        ("No " ++ props.fullTypeName ++ " identified by id: " ++ props.id)
    else page
  let page := if 1 < executions.length then
      page.showPageError ("Found multiple executions with ID: " ++ props.id)
    else page
  match executions.head? with
  | none => page.showPageError (serviceErrorToString undefinedError)
  | some execution => page.withExecution host lib execution (parseEventsByType (some events))

/-- The tables with their rows, once there is an execution. -/
def tables (page : ExecutionDetails) : List (EventCode × List ArtifactRow) :=
  match page.execution, page.events with
  | some _, some events => shownTypes.map fun code =>
      (code, ((page.sections code).map fun s =>
        s.rows page.artifactTypeMap (events code)).getD [])
  | _, _ => []

end ExecutionDetails

/-! ## The page and the store -/

/-- A load, with the replies that have been sent to it so far. -/
structure Load where
  executions : Option (Except Thrown (List Execution))
  events : Option (Except Thrown (List Event))

/-- The page, its requests, and the store they are sent to. -/
structure DetailsWorld where
  store : Store
  page : ExecutionDetails
  loads : List Load
  /-- The requests for the types, with the replies that have been sent. -/
  typeRequests : List (Option (Except Thrown (List TypeRecord)))

/-- The page when it is opened. -/
def DetailsWorld.opened (s : Store) : DetailsWorld := ⟨s, .init, [], []⟩

/-- A reply as the page sees it: an error may have a code. -/
def seenAs {α : Type} (code : Option Int) : Except String α → Except Thrown α
  | .ok a => .ok a
  | .error message => .error ⟨message, code⟩

/-- What the page relies on of the library that fetches the types for it, and on what is
thrown for a property of nothing. -/
structure DetailsLibrary extends ClientLibrary where
  collectTypes : List TypeRecord → OrderedMap Int TypeRecord
  undefinedError : Thrown

/-- Types are collected by their ids. -/
def DetailsLibrary.CollectsById (lib : DetailsLibrary) : Prop :=
  ∀ types id type, (lib.collectTypes types).get id = some type → type ∈ types ∧ type.getId = id

variable (host : Host) (lib : DetailsLibrary) (props : DetailsProps) (E : Effect api Store)

/-- What was answered to a load is shown. -/
def DetailsWorld.withLoaded (w : DetailsWorld) (index : Nat) (executions : List Execution)
    (events : List Event) : DetailsWorld :=
  { w with
    page := w.page.received host lib.toClientLibrary props lib.undefinedError executions events
    loads := w.loads.eraseIdx index }

/-- One step of the page, of the store at one of its requests, or of other clients. -/
inductive DetailsStep : DetailsWorld → DetailsWorld → Prop
  /-- Other clients add to the store. -/
  | outside {w : DetailsWorld} (t : Store) (hgrows : w.store.Grows t) :
      DetailsStep w { w with store := t }
  /-- The page is loaded. -/
  | load {w : DetailsWorld} {n : Int} (hid : props.numberId = some n) (hnonneg : 0 ≤ n) :
      DetailsStep w
        { w with loads := w.loads ++ [⟨none, none⟩], typeRequests := w.typeRequests ++ [none] }
  /-- The page is loaded with an id that is none. -/
  | invalid {w : DetailsWorld} (hid : ∀ n, props.numberId = some n → n < 0) :
      DetailsStep w
        { w with
          page := w.page.showPageError ("Invalid execution id: " ++ props.id)
          typeRequests := w.typeRequests ++ [none] }
  | executionsAnswered {w : DetailsWorld} {index : Nat} {load : Load} {n : Int}
      {reply : Except String (List Execution)} {t : Store} (code : Option Int)
      (hload : w.loads[index]? = some load) (hpending : load.executions = none)
      (hid : props.numberId = some n)
      (heffect : E (.getItemsByID .execution [n]) w.store reply t) :
      DetailsStep w
        { w with
          store := t
          loads := w.loads.set index { load with executions := some (seenAs code reply) } }
  | eventsAnswered {w : DetailsWorld} {index : Nat} {load : Load} {n : Int}
      {reply : Except String (List Event)} {t : Store} (code : Option Int)
      (hload : w.loads[index]? = some load) (hpending : load.events = none)
      (hid : props.numberId = some n)
      (heffect : E (.getEventsByExecutionIDs [n]) w.store reply t) :
      DetailsStep w
        { w with
          store := t
          loads := w.loads.set index { load with events := some (seenAs code reply) } }
  | typesAnswered {w : DetailsWorld} {index : Nat} {reply : Except String (List TypeRecord)}
      {t : Store} (code : Option Int) (hpending : w.typeRequests[index]? = some none)
      (heffect : E (.getTypes .artifact) w.store reply t) :
      DetailsStep w
        { w with store := t, typeRequests := w.typeRequests.set index (some (seenAs code reply)) }
  /-- Both replies have come. -/
  | loaded {w : DetailsWorld} {index : Nat} {executions : List Execution} {events : List Event}
      (hload : w.loads[index]? = some ⟨some (.ok executions), some (.ok events)⟩) :
      DetailsStep w (w.withLoaded host lib props index executions events)
  /-- One reply is an error, and the other is not waited for. -/
  | rejected {w : DetailsWorld} {index : Nat} {load : Load} {err : Thrown}
      (hload : w.loads[index]? = some load)
      (herr : load.executions = some (.error err) ∨ load.events = some (.error err)) :
      DetailsStep w
        { w with
          page := w.page.showPageError (serviceErrorToString err)
          loads := w.loads.eraseIdx index }
  | typesLoaded {w : DetailsWorld} {index : Nat} {types : List TypeRecord}
      (hreply : w.typeRequests[index]? = some (some (.ok types))) :
      DetailsStep w
        { w with
          page := { w.page with artifactTypeMap := some (lib.collectTypes types) }
          typeRequests := w.typeRequests.eraseIdx index }
  | typesFailed {w : DetailsWorld} {index : Nat} {err : Thrown}
      (hreply : w.typeRequests[index]? = some (some (.error err))) :
      DetailsStep w
        { w with
          page := w.page.showPageError "Failed to fetch artifact types"
          typeRequests := w.typeRequests.eraseIdx index }
  | sectionAnswered {w : DetailsWorld} {type : EventCode} {s : SectionIo}
      {artifactIds : List Int} {reply : Except String (List Artifact)} {t : Store}
      (code : Option Int) (hsection : w.page.sections type = some s)
      (hsent : s.loading = .sent artifactIds)
      (heffect : E (.getItemsByID .artifact artifactIds) w.store reply t) :
      DetailsStep w
        { w with
          store := t
          page := w.page.setSection type { s with loading := .answered (seenAs code reply) } }
  | sectionLoaded {w : DetailsWorld} {type : EventCode} {s : SectionIo}
      {reply : Except Thrown (List Artifact)} (hsection : w.page.sections type = some s)
      (hanswered : s.loading = .answered reply) :
      DetailsStep w
        { w with page := w.page.setSection type (s.received lib.toClientLibrary reply) }

end KfMetadata.Frontend
