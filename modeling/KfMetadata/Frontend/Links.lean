/-
# Links to the details of a resource

The addresses of the pages with the details of an artifact or an execution have a place for
a type and one for an id. The list pages fill them from the id of a row, which is the type
and the id with a colon in between and is taken apart at its colons; other pages fill them
from the type and the id themselves. All of them replace one place after the other. So a
type with a colon loses what comes after it on the list pages, and a type with a dollar can
come out changed on all pages.
-/

import KfMetadata.Frontend.LastRequest
import KfMetadata.Library.Replacement
import KfMetadata.Library.Text
import KfMetadata.Service.NamespacedNames

namespace KfMetadata.Frontend

open Mlmd Replacement

/-! ## Addresses -/

namespace RouteParams

def artifactType : String := "artifactType"

def executionType : String := "executionType"

def id : String := "id"

end RouteParams

namespace RoutePage

def artifactDetails : String :=
  "/artifact_types/:" ++ RouteParams.artifactType ++ "+/artifacts/:" ++ RouteParams.id

def executionDetails : String :=
  "/execution_types/:" ++ RouteParams.executionType ++ "+/executions/:" ++ RouteParams.id

end RoutePage

/-- Put a type in its place. -/
def putType (page typeParam type : String) : String := replace page (":" ++ typeParam ++ "+") type

/-- Put an id in its place. -/
def putId (route id : String) : String := replace route (":" ++ RouteParams.id) id

/-! ## Links -/

/-- A part of a text that is taken apart. A missing part is converted to a text. -/
def part (parts : List String) (n : Nat) : String := parts[n]?.getD "undefined"

/-- The link of a row, from the id of the row. -/
def nameLink (page typeParam rowId : String) : String :=
  let parts := (rowId.toList.splitOn ':').map String.ofList
  putId (putType page typeParam (part parts 0)) (part parts 1)

def ArtifactList.nameCustomRenderer : String → String :=
  nameLink RoutePage.artifactDetails RouteParams.artifactType

def ExecutionList.nameCustomRenderer : String → String :=
  nameLink RoutePage.executionDetails RouteParams.executionType

def RoutePageFactory.artifactDetails (host : Host) (artifactType : String) (artifactId : Number) :
    String :=
  putId (putType RoutePage.artifactDetails RouteParams.artifactType artifactType)
    (host.numberToString artifactId)

/-- What the view of the lineage shows. -/
inductive LineageResource
  | artifact (resource : Artifact)
  | execution (resource : Execution)

def LineageResource.getId : LineageResource → Number
  | .artifact resource => .finite (resource.id.getD 0)
  | .execution resource => .finite (resource.id.getD 0)

/-- An artifact has its id put in twice. -/
def buildResourceDetailsPageRoute (host : Host) (resource : LineageResource) (typeName : String) :
    String :=
  let route := match resource with
    | .artifact _ => RoutePageFactory.artifactDetails host typeName resource.getId
    | .execution _ => putType RoutePage.executionDetails RouteParams.executionType typeName
  putId route (host.numberToString resource.getId)

/-! ## Where the places are -/

/-- A page has its first colon before the parameter of the type, its last before the id. -/
structure HasPlaces (page typeParam front middle : String) : Prop where
  page_eq : page = front ++ (":" ++ typeParam ++ "+") ++ (middle ++ (":" ++ RouteParams.id))
  front_colon : ':' ∉ front.toList
  middle_colon : ':' ∉ middle.toList

theorem artifactDetails_hasPlaces : HasPlaces RoutePage.artifactDetails RouteParams.artifactType
    "/artifact_types/" "/artifacts/" :=
  ⟨rfl, by decide, by decide⟩

theorem executionDetails_hasPlaces : HasPlaces RoutePage.executionDetails
    RouteParams.executionType "/execution_types/" "/executions/" :=
  ⟨rfl, by decide, by decide⟩

section Places

variable {page typeParam front middle : String} {type id : String}

/-- The type comes first, so it goes to the place that is meant for it. -/
theorem putType_eq (hpage : HasPlaces page typeParam front middle)
    (htype : ¬ HasSpecial type.toList) :
    putType page typeParam type = front ++ type ++ (middle ++ (":" ++ RouteParams.id)) := by
  rw [putType, hpage.page_eq]
  apply replace_append_of_not_hasSpecial _ hpage.front_colon htype
  simp

theorem head?_idPlace : (":" ++ RouteParams.id).toList.head? = some ':' := rfl

/-- The id goes to its place if the type has brought no colon. -/
theorem putId_putType (hpage : HasPlaces page typeParam front middle) (hcolon : ':' ∉ type.toList)
    (htype : ¬ HasSpecial type.toList) (id : String) :
    ∃ text, putId (putType page typeParam type) id = front ++ type ++ middle ++ text ∧
      (¬ HasSpecial id.toList → text = id) := by
  have hfront : ':' ∉ (front ++ type ++ middle).toList := by
    simp [hpage.front_colon, hcolon, hpage.middle_colon]
  have hplace : putType page typeParam type =
      front ++ type ++ middle ++ (":" ++ RouteParams.id) ++ "" := by
    rw [putType_eq hpage htype, String.append_empty]
    exact String.append_assoc.symm
  rw [putId, hplace, replace_append head?_idPlace hfront, String.append_empty]
  refine ⟨_, rfl, fun hid => ?_⟩
  rw [expand_eq_self hid, String.ofList_toList]

theorem putId_putType_eq (hpage : HasPlaces page typeParam front middle)
    (hcolon : ':' ∉ type.toList) (htype : ¬ HasSpecial type.toList)
    (hid : ¬ HasSpecial id.toList) :
    putId (putType page typeParam type) id = front ++ type ++ middle ++ id := by
  obtain ⟨text, hlink, htext⟩ := putId_putType hpage hcolon htype id
  rw [hlink, htext hid]

/-- A link without colons has no place left. -/
theorem putId_of_notMem {route : String} (hroute : ':' ∉ route.toList) (id : String) :
    putId route id = route :=
  replace_of_notMem head?_idPlace hroute id

/-- The id of a row is cut at its first colon. -/
theorem nameLink_append (page typeParam : String) {first : String} (hfirst : ':' ∉ first.toList)
    (rest : String) :
    ∃ second, nameLink page typeParam (first ++ ":" ++ rest) =
        putId (putType page typeParam first) second ∧ (':' ∉ rest.toList → second = rest) := by
  have hcolon : ":".toList = [':'] := rfl
  have hparts : ((first ++ ":" ++ rest).toList.splitOn ':').map String.ofList =
      first :: (rest.toList.splitOn ':').map String.ofList := by
    simp only [String.toList_append, hcolon, List.append_assoc, List.singleton_append,
      List.splitOn_append_cons_self, List.splitOn_eq_singleton hfirst, List.map_cons,
      String.ofList_toList]
  rw [nameLink, hparts]
  refine ⟨_, rfl, fun hrest => ?_⟩
  rw [List.splitOn_eq_singleton hrest, List.map_singleton, String.ofList_toList]
  rfl

end Places

/-! ## Links that agree -/

/-- The numbers that are ids are printed without colons and dollars. -/
def PlainNumerals (host : Host) : Prop :=
  ∀ id : ℕ, ':' ∉ (host.numberToString (.finite id)).toList ∧
    '$' ∉ (host.numberToString (.finite id)).toList

/-- All links to the details of an artifact or an execution are the addresses of these. -/
structure LinksAgree (host : Host) (type : String) (id : ℕ) : Prop where
  artifactRow : ArtifactList.nameCustomRenderer (type ++ ":" ++ host.numberToString (.finite id)) =
    "/artifact_types/" ++ type ++ "/artifacts/" ++ host.numberToString (.finite id)
  factory : RoutePageFactory.artifactDetails host type (.finite id) =
    "/artifact_types/" ++ type ++ "/artifacts/" ++ host.numberToString (.finite id)
  artifact : ∀ a : Artifact, a.id.getD 0 = id →
    buildResourceDetailsPageRoute host (.artifact a) type =
      "/artifact_types/" ++ type ++ "/artifacts/" ++ host.numberToString (.finite id)
  executionRow :
    ExecutionList.nameCustomRenderer (type ++ ":" ++ host.numberToString (.finite id)) =
      "/execution_types/" ++ type ++ "/executions/" ++ host.numberToString (.finite id)
  execution : ∀ e : Execution, e.id.getD 0 = id →
    buildResourceDetailsPageRoute host (.execution e) type =
      "/execution_types/" ++ type ++ "/executions/" ++ host.numberToString (.finite id)

section Agree

variable {host : Host} {type : String}

theorem nameLink_eq {page typeParam front middle : String}
    (hpage : HasPlaces page typeParam front middle) (hnumerals : PlainNumerals host)
    (hcolon : ':' ∉ type.toList) (htype : ¬ HasSpecial type.toList) (id : ℕ) :
    nameLink page typeParam (type ++ ":" ++ host.numberToString (.finite id)) =
      front ++ type ++ middle ++ host.numberToString (.finite id) := by
  obtain ⟨second, hlink, hsecond⟩ :=
    nameLink_append page typeParam hcolon (host.numberToString (.finite id))
  rw [hlink, hsecond (hnumerals id).1]
  exact putId_putType_eq hpage hcolon htype (hasSpecial_of_notMem (hnumerals id).2)

/-- With a plain type the links are the addresses. -/
theorem linksAgree_of_plain (hnumerals : PlainNumerals host) (hcolon : ':' ∉ type.toList)
    (htype : ¬ HasSpecial type.toList) (id : ℕ) : LinksAgree host type id := by
  have hid : ¬ HasSpecial (host.numberToString (.finite id)).toList :=
    hasSpecial_of_notMem (hnumerals id).2
  have hfactory := putId_putType_eq artifactDetails_hasPlaces hcolon htype hid
  have hfilled : ':' ∉ ("/artifact_types/" ++ type ++ "/artifacts/" ++
      host.numberToString (.finite id)).toList := by
    simp [hcolon, (hnumerals id).1]
  refine ⟨nameLink_eq artifactDetails_hasPlaces hnumerals hcolon htype id, hfactory, ?_,
    nameLink_eq executionDetails_hasPlaces hnumerals hcolon htype id, ?_⟩
  · intro a ha
    have hgetId : (LineageResource.artifact a).getId = .finite id := by
      rw [LineageResource.getId, ha, Rat.intCast_natCast]
    simp only [buildResourceDetailsPageRoute, hgetId]
    rw [RoutePageFactory.artifactDetails, hfactory]
    exact putId_of_notMem hfilled _
  · intro e he
    have hgetId : (LineageResource.execution e).getId = .finite id := by
      rw [LineageResource.getId, he, Rat.intCast_natCast]
    simp only [buildResourceDetailsPageRoute, hgetId]
    exact putId_putType_eq executionDetails_hasPlaces hcolon htype hid

/-- A special pair in the type costs the link a dollar. -/
theorem LinksAgree.not_hasSpecial {id : ℕ} (hnumerals : PlainNumerals host)
    (hagree : LinksAgree host type id) : ¬ HasSpecial type.toList := by
  intro hspecial
  have hpage := artifactDetails_hasPlaces
  have hid := (hnumerals id).2
  have hfewer : (putType RoutePage.artifactDetails RouteParams.artifactType type).toList.count '$' <
      type.toList.count '$' := by
    rw [putType, hpage.page_eq]
    exact count_replace_lt rfl hpage.front_colon (by decide) (by decide) (by decide) hspecial
  have hlink : (RoutePageFactory.artifactDetails host type (.finite id)).toList.count '$' <
      type.toList.count '$' := by
    rw [RoutePageFactory.artifactDetails, putId, count_replace (by decide) hid]
    exact hfewer
  have haddress : type.toList.count '$' ≤ ("/artifact_types/" ++ type ++ "/artifacts/" ++
      host.numberToString (.finite id)).toList.count '$' := by
    simp only [String.toList_append, List.count_append]
    omega
  rw [← hagree.factory] at haddress
  exact absurd hlink (Nat.not_lt_of_le haddress)

/-- A row loses what comes after a colon in the type. -/
theorem LinksAgree.not_colon {id : ℕ} (hagree : LinksAgree host type id)
    (htype : ¬ HasSpecial type.toList) : ':' ∉ type.toList := by
  intro hcolon
  obtain ⟨front, rest, hchars, hfront⟩ := List.eq_append_cons_of_mem hcolon
  obtain ⟨first, rfl⟩ : ∃ first : String, first.toList = front :=
    ⟨String.ofList front, String.toList_ofList⟩
  have hfirst : ¬ HasSpecial first.toList := fun h => htype (hchars ▸ h.append _)
  have hcut : type ++ ":" ++ host.numberToString (.finite id) =
      first ++ ":" ++ (String.ofList rest ++ ":" ++ host.numberToString (.finite id)) := by
    apply String.toList_injective
    simp [hchars]
  obtain ⟨second, hlink, -⟩ := nameLink_append RoutePage.artifactDetails
    RouteParams.artifactType hfront
    (String.ofList rest ++ ":" ++ host.numberToString (.finite id))
  obtain ⟨text, hfilled, -⟩ := putId_putType artifactDetails_hasPlaces hfront hfirst second
  have hrow := hagree.artifactRow
  rw [hcut, ArtifactList.nameCustomRenderer, hlink, hfilled] at hrow
  -- after the first part the link has a slash, where the address has the colon
  have hcharsEq := congrArg String.toList hrow
  simp [hchars] at hcharsEq

/-! ## Rows -/

/-- The row of an artifact leads where the view of its lineage leads. -/
theorem LinksAgree.row_artifact {id : ℕ} (hagree : LinksAgree host type id)
    {lib : ClientLibrary} {artifactTypes : OrderedMap Int TypeRecord} {a : Artifact}
    (hid : a.id.getD 0 = id) (htype : lib.getTypeName (a.typeId.getD 0) artifactTypes = type) :
    ArtifactList.nameCustomRenderer (ArtifactList.row host lib artifactTypes a).id =
      buildResourceDetailsPageRoute host (.artifact a) type := by
  have hrowId : (ArtifactList.row host lib artifactTypes a).id =
      type ++ ":" ++ host.numberToString (.finite id) := by
    simp only [ArtifactList.row, htype, hid, Rat.intCast_natCast]
  rw [hrowId, hagree.artifactRow, hagree.artifact a hid]

/-- The row of an execution whose type is known leads there, too. -/
theorem LinksAgree.row_execution {id : ℕ} {lib : ClientLibrary}
    {executionTypesMap : OrderedMap Int TypeRecord} {execution : Execution}
    {executionType : TypeRecord} (hagree : LinksAgree host executionType.getName id)
    (hid : execution.id.getD 0 = id)
    (htype : executionTypesMap.get (execution.typeId.getD 0) = some executionType) :
    ExecutionList.nameCustomRenderer (ExecutionList.row host lib executionTypesMap execution).id =
      buildResourceDetailsPageRoute host (.execution execution) executionType.getName := by
  have hrowId : (ExecutionList.row host lib executionTypesMap execution).id =
      executionType.getName ++ ":" ++ host.numberToString (.finite id) := by
    simp only [ExecutionList.row, htype, hid, Rat.intCast_natCast, Host.toText]
  rw [hrowId, hagree.executionRow, hagree.execution execution hid]

end Agree

/-! ## When links agree -/

/-- The types that have segments the service accepts, and nothing that ends a path. -/
def LegalTypeName (type : String) : Prop :=
  (∀ segment ∈ PathTemplate.segments type,
    segment ≠ "" ∧ Service.validTypeName segment = .ok ()) ∧
  '?' ∉ type.toList ∧ '#' ∉ type.toList ∧ '%' ∉ type.toList

theorem linksAgree_iff {host : Host} (hnumerals : PlainNumerals host) (type : String) (id : ℕ) :
    LinksAgree host type id ↔ ':' ∉ type.toList ∧ ¬ HasSpecial type.toList := by
  apply Iff.intro
  · intro hagree
    have htype := hagree.not_hasSpecial hnumerals
    exact ⟨hagree.not_colon htype, htype⟩
  · intro hplain
    exact linksAgree_of_plain hnumerals hplain.1 hplain.2 id

theorem plainNumerals_plainHost : PlainNumerals plainHost := by
  intro id
  have hchars : (plainHost.numberToString (.finite id)).toList = Nat.toDigits 10 id :=
    Text.toList_toString_natCast id
  have hdigits : ∀ c ∈ Nat.toDigits 10 id, c.isDigit = true := fun c hc =>
    Nat.isDigit_of_mem_toDigits (by decide) (by decide) hc
  rw [hchars]
  exact ⟨fun h => absurd (hdigits _ h) (by decide), fun h => absurd (hdigits _ h) (by decide)⟩

theorem linksAgree_iff_model : LinksAgree plainHost "kubeflow.org/alpha/model" 7 := by
  rw [linksAgree_iff plainNumerals_plainHost]
  decide

/-- The type of a row ends at its colon. -/
theorem links_disagree_colon :
    ¬ ∀ (host : Host) (type : String) (id : ℕ), PlainNumerals host → LegalTypeName type →
      LinksAgree host type id := by
  intro hclaim
  have hsegments : PathTemplate.segments "kubeflow.org/model:v1" =
      ["kubeflow.org", "model:v1"] := by
    decide
  have hlegal : LegalTypeName "kubeflow.org/model:v1" := by
    rw [LegalTypeName, hsegments, List.forall_mem_cons, List.forall_mem_singleton]
    exact ⟨⟨⟨by decide, rfl⟩, by decide, rfl⟩, by decide⟩
  have hrow := (hclaim plainHost _ 7 plainNumerals_plainHost hlegal).artifactRow
  revert hrow
  decide +kernel

end KfMetadata.Frontend
