/-
# The page of an artifact

The page of an artifact fetches it by its id when it is opened, and again whenever it is
refreshed. It shows the address of the artifact, and its properties except for the text that
has all attributes of an object. Requests are evaluated and answered in any order, while
others add to the store.

Whatever the order, the page shows nothing but the stored artifact. If a user of the client
has logged an object before the page of its artifact is opened, the page shows no error, and
each text among the attributes that are stored by name in a row of its own.
-/

import KfMetadata.Frontend.ExecutionDetails

namespace KfMetadata.Frontend

open Mlmd Remote

/-! ## What is shown of a resource -/

/-- A value of a property, as the client library has it. -/
inductive MetadataValue
  | text (value : String)
  | number (value : Number)
  deriving DecidableEq

/-- What stands for a value on a page. -/
inductive ShownValue
  | plain (value : MetadataValue)
  | pre (text : String)
  deriving DecidableEq

/-- What the page of an artifact uses of the client library and its messages, and of how the
browser writes JSON. -/
structure ResourceLibrary extends ClientLibrary where
  /-- The property that has the version. -/
  getVersion : Artifact → Cell
  getMetadataValue : Option Value → MetadataValue
  /-- The names of the entries of a map, in the order of the entries. -/
  entryNames : StringMap Value → List String
  stringify : Json → String
  titleCase : String → String
  /-- The number that is sent for an id. -/
  toInt64 : Number → Int

/-- A map has an entry for each of its names, and a text is read as it is. -/
structure ResourceLibrary.Documented (lib : ResourceLibrary) : Prop where
  entryNames : ∀ properties, (lib.entryNames properties).Nodup ∧
    ∀ name, name ∈ lib.entryNames properties ↔ name ∈ properties
  getMetadataValue : ∀ text, lib.getMetadataValue (some (.string text)) = .text text

namespace ResourceInfo

variable (host : Host) (lib : ResourceLibrary)

/-- Texts are laid out if they are JSON. -/
def prettyPrintJsonValue (value : MetadataValue) : ShownValue :=
  match value with
  | .number _ => .plain value
  | .text text =>
      match host.jsonParse text with
      | some jsonValue => .pre (lib.stringify jsonValue)
      | none => .plain value

/-- What stands for the property of a name. -/
def shownValue (properties : StringMap Value) (name : String) : ShownValue :=
  prettyPrintJsonValue host lib (lib.getMetadataValue (properties.lookup name))

/-- A row for each of the names. -/
def rows (properties : StringMap Value) (names : List String) : List (String × ShownValue) :=
  names.map fun name => (name, shownValue host lib properties name)

end ResourceInfo

/-! ## The page -/

/-- What the page is addressed by. -/
structure ArtifactParams where
  artifactType : Option String
  id : String

structure ArtifactDetails where
  artifact : Option Artifact
  /-- The title of the toolbar. -/
  pageTitle : String
  pageErrors : List String

namespace ArtifactDetails

variable (host : Host) (lib : ResourceLibrary) (params : ArtifactParams)

def fullTypeName : String := params.artifactType.getD ""

/-- What comes after the last slash of the type. -/
def properTypeName : String :=
  let parts := ((fullTypeName params).toList.splitOn '/').map String.ofList
  lib.titleCase (parts.getLastD "")

def id : Number := host.stringToNumber params.id

/-- The page before it has loaded anything. -/
def init : ArtifactDetails where
  artifact := none
  pageTitle :=
    properTypeName lib params ++ " " ++ host.numberToString (id host params) ++ " details"
  pageErrors := []

def showPageError (page : ArtifactDetails) (message : String) : ArtifactDetails :=
  { page with pageErrors := page.pageErrors ++ [message] }

/-- The title for an artifact: its name, and its version if it has one. -/
def titleOf (artifact : Artifact) : String :=
  let artifactName := (lib.getResourceProperty artifact .name false).or
    (lib.getResourceProperty artifact .name true)
  let title := if artifactName.truthy then host.toText artifactName else ""
  let version := lib.getVersion artifact
  if version.truthy then title ++ " (version: " ++ host.toText version ++ ")" else title

def notFoundMessage : String :=
  "No " ++ fullTypeName params ++ " identified by id: " ++ host.numberToString (id host params)

/-- What a load does when it is answered. -/
def received (page : ArtifactDetails) : Except Thrown (List Artifact) → ArtifactDetails
  | .error err => page.showPageError (serviceErrorToString err)
  | .ok [] => page.showPageError (notFoundMessage host params)
  | .ok [artifact] =>
      { page with artifact := some artifact, pageTitle := titleOf host lib artifact }
  | .ok (_ :: _ :: _) => page.showPageError
      ("Found multiple artifacts with ID: " ++ host.numberToString (id host params))

end ArtifactDetails

/-! ## The page and the store -/

/-- The page, its loads with the replies that have been sent, and the store. -/
structure ArtifactWorld where
  store : Store
  page : ArtifactDetails
  loads : List (Option (Except Thrown (List Artifact)))

variable (host : Host) (lib : ResourceLibrary) (params : ArtifactParams) (E : Effect api Store)

def ArtifactWorld.opened (s : Store) : ArtifactWorld := ⟨s, .init host lib params, []⟩

/-- The request of a load. -/
def artifactRequest : Call :=
  .getItemsByID .artifact [lib.toInt64 (ArtifactDetails.id host params)]

/-- One step of the page, of the store at one of its requests, or of other clients. -/
inductive ArtifactStep : ArtifactWorld → ArtifactWorld → Prop
  /-- Other clients add to the store. -/
  | outside {w : ArtifactWorld} (t : Store) (hgrows : w.store.Grows t) :
      ArtifactStep w { w with store := t }
  /-- The page is opened, or refreshed. -/
  | load {w : ArtifactWorld} : ArtifactStep w { w with loads := w.loads ++ [none] }
  | evaluated {w : ArtifactWorld} {index : Nat} {reply : Except String (List Artifact)}
      {t : Store} (code : Option Int) (hpending : w.loads[index]? = some none)
      (heffect : E (artifactRequest host lib params) w.store reply t) :
      ArtifactStep w
        { w with store := t, loads := w.loads.set index (some (seenAs code reply)) }
  | answered {w : ArtifactWorld} {index : Nat} {reply : Except Thrown (List Artifact)}
      (hreply : w.loads[index]? = some (some reply)) :
      ArtifactStep w
        { w with
          page := w.page.received host lib params reply
          loads := w.loads.eraseIdx index }

end KfMetadata.Frontend
