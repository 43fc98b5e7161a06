/-
# The list pages

The pages that list artifacts and executions. Each fetches the types and what it lists
when it has none of them yet, keeps them, and arranges rows of what it has kept. The page
of artifacts arranges its rows on every call of `reload`, the page of executions only
when it has just fetched.

What a fetch brings is given with each call; state updates are taken as made at once.
What is left out is what only the display uses.
-/

import KfMetadata.Frontend.Utils
import KfMetadata.Library.Stateful
import KfMetadata.Mlmd.Records

namespace KfMetadata.Frontend

open Mlmd

/-- The properties of artifacts and executions that the pages show. -/
inductive ResourceProperty
  | pipelineName
  | workspace
  | runId
  | name
  | componentId
  | taskId
  | state
  deriving DecidableEq, Repr

/-- What the pages use of the client library of the metadata service. -/
structure ClientLibrary where
  getResourceProperty : {k : Kind} → Item k → ResourceProperty → Bool → Cell
  getTypeName : Int → OrderedMap Int TypeRecord → String

/-- What an error says on the page. -/
def serviceErrorToString (err : Thrown) : String :=
  let code := match err.code with
    | none => ""
    | some code => if code = 0 then "" else " Code: " ++ toString code
  "Error: " ++ err.message ++ "." ++ code

/-! ## Artifacts -/

/-- The page of artifacts. -/
structure ArtifactList where
  artifacts : List Artifact
  rows : List Row
  expandedRows : OrderedMap Nat (List Row)
  artifactTypes : OrderedMap Int TypeRecord
  /-- The errors that the page has shown. -/
  pageErrors : List String

/-- What the backend answers during a call: the types as the client library collects them,
and the artifacts, if there is a response. -/
structure ArtifactCall where
  request : ListRequest
  artifactTypes : OrderedMap Int TypeRecord
  response : Except Thrown (Option (List Artifact))

namespace ArtifactList

variable (host : Host) (lib : ClientLibrary)

/-- The page before the first call. -/
def init : ArtifactList where
  artifacts := []
  rows := []
  expandedRows := .empty
  artifactTypes := .empty
  pageErrors := []

def columns : List Column :=
  [⟨"Pipeline/Workspace", "pipelineName"⟩, ⟨"Name", "name"⟩, ⟨"ID", "id"⟩, ⟨"Type", "type"⟩,
    ⟨"URI", "uri"⟩]

def showPageError (message : String) : Stateful Thrown ArtifactList Unit :=
  modify fun page => { page with pageErrors := page.pageErrors ++ [message] }

def getArtifacts (call : ArtifactCall) : Stateful Thrown ArtifactList (List Artifact) := do
  match ← ofExcept call.response with
  | none =>
      showPageError "Unable to retrieve Artifacts."
      return []
  | some artifacts => return artifacts

/-- The row of an artifact. -/
def row (artifactTypes : OrderedMap Int TypeRecord) (a : Artifact) : Row :=
  let type := lib.getTypeName (a.typeId.getD 0) artifactTypes
  let id := Number.finite (a.id.getD 0)
  { expandState := none
    id := type ++ ":" ++ host.numberToString id
    otherFields :=
      [(lib.getResourceProperty a .pipelineName false).or
          (lib.getResourceProperty a .workspace true),
        lib.getResourceProperty a .name false,
        .number id,
        .text type,
        .text (a.uri.getD "")] }

/-- The rows of the artifacts that are kept, as a request says. -/
def arranged (page : ArtifactList) (request : ListRequest) :
    Except Thrown CollapsedAndExpandedRows :=
  arrangeRows host request columns (page.artifacts.map (row host lib page.artifactTypes))

def getRowsFromArtifacts (request : ListRequest) : Stateful Thrown ArtifactList (List Row) := do
  let collapsedAndExpandedRows ← ofExcept (arranged host lib (← get) request)
  modify fun page => { page with expandedRows := collapsedAndExpandedRows.expandedRows }
  return collapsedAndExpandedRows.collapsedRows

/-- Fetch what is missing. -/
def fetch (call : ArtifactCall) : Stateful Thrown ArtifactList Unit := do
  if (← get).artifactTypes.isEmpty then
    modify fun page => { page with artifactTypes := call.artifactTypes }
  if (← get).artifacts.isEmpty then
    let artifacts ← getArtifacts call
    modify fun page => { page with artifacts := artifacts }

def reload (call : ArtifactCall) : Stateful Thrown ArtifactList String := do
  fetch call
  let rows ← getRowsFromArtifacts host lib call.request
  modify fun page => { page with rows := rows }
  return ""

/-- The page after calls that are made one after another. -/
def run (page : ArtifactList) (calls : List ArtifactCall) : ArtifactList :=
  calls.foldl (fun page call => ((reload host lib call).outcome page).2) page

end ArtifactList

/-! ## Executions -/

/-- The page of executions. -/
structure ExecutionList where
  executions : List Execution
  rows : List Row
  expandedRows : OrderedMap Nat (List Row)
  executionTypesMap : OrderedMap Int TypeRecord
  /-- The errors that the page has shown. -/
  pageErrors : List String

/-- What the backend answers during a call. -/
structure ExecutionCall where
  request : ListRequest
  typesResponse : Except Thrown (List TypeRecord)
  response : Except Thrown (List Execution)

namespace ExecutionList

variable (host : Host) (lib : ClientLibrary)

/-- The page before the first call. -/
def init : ExecutionList where
  executions := []
  rows := []
  expandedRows := .empty
  executionTypesMap := .empty
  pageErrors := []

def columns : List Column :=
  [⟨"Pipeline/Workspace", "pipelineName"⟩, ⟨"Name", "name"⟩, ⟨"State", "state"⟩, ⟨"ID", "id"⟩,
    ⟨"Type", "type"⟩]

def showPageError (message : String) : Stateful Thrown ExecutionList Unit :=
  modify fun page => { page with pageErrors := page.pageErrors ++ [message] }

/-- The executions of the backend, which answers with a code of its own if there are none. -/
def getExecutions (call : ExecutionCall) : Stateful Thrown ExecutionList (List Execution) :=
  match call.response with
  | .ok executions => return executions
  | .error err =>
      if err.code = some 5 then return []
      else throw { err with message := "Failed getting executions: " ++ err.message }

/-- The types by their ids. -/
def typesById (types : List TypeRecord) : OrderedMap Int TypeRecord :=
  types.foldl (fun executionTypesMap type => executionTypesMap.set type.getId type) .empty

def getExecutionTypes (call : ExecutionCall) :
    Stateful Thrown ExecutionList (OrderedMap Int TypeRecord) := do
  match call.typesResponse with
  | .ok types => return typesById types
  | .error err =>
      showPageError (serviceErrorToString err)
      return .empty

/-- The row of an execution. -/
def row (executionTypesMap : OrderedMap Int TypeRecord) (execution : Execution) : Row :=
  let typeId := execution.typeId.getD 0
  let type := match executionTypesMap.get typeId with
    | some executionType => .text executionType.getName
    | none => .number (.finite typeId)
  let id := Number.finite (execution.id.getD 0)
  { expandState := none
    id := host.toText type ++ ":" ++ host.numberToString id
    otherFields :=
      [((lib.getResourceProperty execution .pipelineName false).or
          (lib.getResourceProperty execution .workspace true)).or
          (lib.getResourceProperty execution .runId true),
        ((lib.getResourceProperty execution .name false).or
          (lib.getResourceProperty execution .componentId false)).or
          (lib.getResourceProperty execution .taskId true),
        lib.getResourceProperty execution .state false,
        .number id,
        type] }

def getRowsFromExecutions (page : ExecutionList) (request : ListRequest)
    (executions : List Execution) : Except Thrown CollapsedAndExpandedRows :=
  arrangeRows host request columns (executions.map (row host lib page.executionTypesMap))

/-- Fetch the types if there are none. -/
def fetchTypes (call : ExecutionCall) : Stateful Thrown ExecutionList Unit := do
  if (← get).executionTypesMap.isEmpty then
    let types ← getExecutionTypes call
    modify fun page => { page with executionTypesMap := types }

/-- Fetch the executions if there are none, and arrange them. -/
def fetchExecutions (call : ExecutionCall) : Stateful Thrown ExecutionList Unit := do
  if (← get).executions.isEmpty then
    let executions ← getExecutions call
    modify fun page => { page with executions := executions }
    let collapsedAndExpandedRows ←
      ofExcept (getRowsFromExecutions host lib (← get) call.request executions)
    modify fun page =>
      { page with
        expandedRows := collapsedAndExpandedRows.expandedRows
        rows := collapsedAndExpandedRows.collapsedRows }

/-- Errors are shown, and do not make the call fail. -/
def reload (call : ExecutionCall) : Stateful Thrown ExecutionList String := do
  try
    fetchTypes call
    fetchExecutions host lib call
  catch err => showPageError (serviceErrorToString err)
  return ""

/-- The page after calls that are made one after another. -/
def run (page : ExecutionList) (calls : List ExecutionCall) : ExecutionList :=
  calls.foldl (fun page call => ((reload host lib call).outcome page).2) page

end ExecutionList

end KfMetadata.Frontend
