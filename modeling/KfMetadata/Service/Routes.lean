/-
# HTTP routes

The gateway in front of the service matches the path of a request with the
templates of the methods in the order in which they are declared. Type names
contain slashes, so the templates overlap: a type whose last segments look like
the collection of its artifacts is taken for a list or for an artifact. Routes of
artifacts themselves are never mistaken.
-/

import KfMetadata.Library.PathTemplate
import KfMetadata.Service.Handlers

namespace KfMetadata.Service

open Mlmd PathTemplate

/-! ## Type names -/

def kfDefaultNamespace : String := "types.kubeflow.org/default"

/-- `[A-Za-z]` -/
def isLetter (c : Char) : Bool := ('A' ≤ c ∧ c ≤ 'Z') ∨ ('a' ≤ c ∧ c ≤ 'z')

/-- `^[A-Za-z][^ /]*$` -/
def validTypeNameRE : Regexp :=
  .seq (.one isLetter) (.seq (.many fun c => c ≠ ' ' ∧ c ≠ '/') .atEnd)

/-- `^[A-Za-z][^ ]*[^/]$` -/
def validNamespaceRE : Regexp :=
  .seq (.one isLetter) (.seq (.many fun c => c ≠ ' ') (.seq (.one fun c => c ≠ '/') .atEnd))

def validTypeName (n : String) : Except GoError Unit :=
  if (validTypeNameRE.submatchHere n.toList).isSome then .ok ()
  else .error (.errorf ("invalid type name %q: type names must begin with an alphabet " ++
    "and not contain spaces or slashes") [.text n])

def validNamespace (n : String) : Except GoError Unit :=
  if (validNamespaceRE.submatchHere n.toList).isSome then .ok ()
  else .error (.errorf ("invalid namespace %q: namespaces must begin with an alphabet, " ++
    "should not contain spaces, or end with a trailing /") [.text n])

/-- The name of a type with its namespace, which is the default one if there is none. -/
def getNamespacedName (n : String) : Except GoError String :=
  match (segments n).getLast? with
  | none => .error (.errorf "malformed type name: %q" [.text n])
  | some name =>
      if name = "" then .error (.errorf "empty type name: %q" [.text n])
      else do
        let space :=
          if 1 < (segments n).length then join (segments n).dropLast else kfDefaultNamespace
        validNamespace space
        validTypeName name
        return space ++ "/" ++ name

/-! ## The bindings -/

/-- The text has no escapes, and no verb can be cut off it. -/
def IsPlain (s : String) : Prop := ∀ c ∈ s.toList, c ≠ ':' ∧ c ≠ '%'

instance (s : String) : Decidable (IsPlain s) := List.decidableBAll _ s.toList

theorem IsPlain.append {s t : String} (hs : IsPlain s) (ht : IsPlain t) : IsPlain (s ++ t) := by
  intro c hc
  rw [String.toList_append] at hc
  rcases List.mem_append.mp hc with hleft | hright
  · exact hs c hleft
  · exact ht c hright

/-- A path that the gateway takes as it is. -/
structure RequestPath where
  text : String
  plain : IsPlain text

/-- A template and the request that is made of its variable. -/
structure Binding where
  template : Template
  request : String → Request

def apiRoot : List Segment := [.literal "api", .literal "v1alpha1"]

/-- `/api/v1alpha1/{name=<types>/**/<items>/*}` -/
def itemTemplate (types items : String) : Template :=
  ⟨apiRoot, [.literal types, .anyMany, .literal items, .any], []⟩

/-- `/api/v1alpha1/{name=<types>/**}/<items>` -/
def itemsTemplate (types items : String) : Template :=
  ⟨apiRoot, [.literal types, .anyMany], [.literal items]⟩

/-- `/api/v1alpha1/{name=<types>/**}` -/
def typeTemplate (types : String) : Template := ⟨apiRoot, [.literal types, .anyMany], []⟩

/-- `/api/v1alpha1/<collection>` -/
def collectionTemplate (collection : String) : Template :=
  ⟨apiRoot, [], [.literal collection]⟩

/-- `/api/v1alpha1/events/{name=<items>/*}` -/
def eventsTemplate (items : String) : Template :=
  ⟨apiRoot ++ [.literal "events"], [.literal items, .any], []⟩

/-- The bindings of GET, in the order of their declaration. -/
def getBindings : List Binding :=
  [ ⟨itemTemplate "artifact_types" "artifacts", .getArtifact⟩,
    ⟨itemsTemplate "artifact_types" "artifacts", .listArtifacts⟩,
    ⟨collectionTemplate "artifacts", .listArtifacts⟩,
    ⟨itemTemplate "execution_types" "executions", .getExecution⟩,
    ⟨itemsTemplate "execution_types" "executions", .listExecutions⟩,
    ⟨collectionTemplate "executions", .listExecutions⟩,
    ⟨collectionTemplate "artifact_types", fun _ => .listArtifactTypes⟩,
    ⟨typeTemplate "artifact_types", .getArtifactType⟩,
    ⟨collectionTemplate "execution_types", fun _ => .listExecutionTypes⟩,
    ⟨typeTemplate "execution_types", .getExecutionType⟩,
    ⟨eventsTemplate "executions", .listEvents⟩,
    ⟨eventsTemplate "artifacts", .listEvents⟩ ]

/-- The request that a GET of a path is routed to: the first template that matches decides. -/
def routeGet (path : RequestPath) : Option Request :=
  if Text.hasPrefix path.text "/" then
    getBindings.findSome? fun b =>
      (b.template.capture (Text.trimPrefix path.text "/")).map b.request
  else none

/-! ## Matching the bindings -/

section Captures

variable {path types other : String} {segs : List String}

theorem capture_itemTemplate (items : String)
    (hpath : segments path = "api" :: "v1alpha1" :: types :: segs) :
    (itemTemplate types items).capture path =
      if segs.dropLast.getLast? = some items then
        some (join [types, join segs.dropLast.dropLast, items, segs.getLast?.getD ""])
      else none := by
  simp only [Template.capture, itemTemplate, apiRoot, hpath, List.cons_append, List.nil_append,
    parts_literal_self, parts_anyMany_literal_any]
  split
  · rfl
  · rfl

theorem capture_itemsTemplate (items : String)
    (hpath : segments path = "api" :: "v1alpha1" :: types :: segs) :
    (itemsTemplate types items).capture path =
      if segs.getLast? = some items then some (join [types, join segs.dropLast]) else none := by
  simp only [Template.capture, itemsTemplate, apiRoot, hpath, List.cons_append, List.nil_append,
    parts_literal_self, parts_anyMany_literal]
  split
  · rfl
  · rfl

theorem capture_typeTemplate (hpath : segments path = "api" :: "v1alpha1" :: types :: segs) :
    (typeTemplate types).capture path = some (join [types, join segs]) := by
  simp only [Template.capture, typeTemplate, apiRoot, hpath, List.cons_append, List.nil_append,
    List.append_nil, parts_literal_self, parts_anyMany]
  rfl

/-- A template for something else does not match. -/
theorem capture_of_ne {rest : List Segment} {t : Template}
    (ht : t.before ++ t.captured ++ t.after = apiRoot ++ .literal other :: rest)
    (hpath : segments path = "api" :: "v1alpha1" :: types :: segs) (hne : types ≠ other) :
    t.capture path = none := by
  simp only [Template.capture, ht, apiRoot, hpath, List.cons_append, List.nil_append,
    parts_literal_self, parts_literal_of_ne hne, Option.map_none]

/-- Nor does the template of a collection that the path goes on from. -/
theorem capture_collectionTemplate
    (hpath : segments path = "api" :: "v1alpha1" :: types :: segs) (hne : segs ≠ []) :
    (collectionTemplate types).capture path = none := by
  obtain ⟨seg, segs', rfl⟩ := List.exists_cons_of_ne_nil hne
  simp only [Template.capture, collectionTemplate, apiRoot, hpath, List.cons_append,
    List.nil_append, parts_literal_self]
  rfl

end Captures

/-! ## Routes below a collection of types -/

/-- The segment that the paths of the types start with. -/
def Resource.types : Resource → String
  | .artifact => "artifact_types"
  | .execution => "execution_types"

/-- The segment that the paths of the items go on with. -/
def Resource.items : Resource → String
  | .artifact => "artifacts"
  | .execution => "executions"

def Resource.getType : Resource → String → Request
  | .artifact => .getArtifactType
  | .execution => .getExecutionType

def Resource.listItems : Resource → String → Request
  | .artifact => .listArtifacts
  | .execution => .listExecutions

def Resource.getItem : Resource → String → Request
  | .artifact => .getArtifact
  | .execution => .getExecution

/-- No two of the three requests of a resource are the same. -/
theorem Resource.requests_differ (r : Resource) (name name' : String) :
    r.getItem name ≠ r.getType name' ∧ r.listItems name ≠ r.getType name' ∧
      r.getItem name ≠ r.listItems name' := by
  cases r <;> exact ⟨nofun, nofun, nofun⟩

/-- Below the types, the last two segments decide. -/
theorem routeGet_types (r : Resource) {path : RequestPath} {rest : String}
    {segs : List String} (htext : path.text = "/" ++ rest)
    (hpath : segments rest = "api" :: "v1alpha1" :: r.types :: segs) (hne : segs ≠ []) :
    routeGet path = some (
      if segs.dropLast.getLast? = some r.items then
        r.getItem (join [r.types, join segs.dropLast.dropLast, r.items, segs.getLast?.getD ""])
      else if segs.getLast? = some r.items then r.listItems (join [r.types, join segs.dropLast])
      else r.getType (join [r.types, join segs])) := by
  have hprefix : Text.hasPrefix path.text "/" = true := by
    rw [htext, Text.hasPrefix, String.toList_append]
    exact List.isPrefixOf_iff_prefix.mpr (List.prefix_append _ _)
  rw [routeGet, if_pos hprefix, htext, Text.trimPrefix_append]
  have hitem := capture_itemTemplate r.items hpath
  have hitems := capture_itemsTemplate r.items hpath
  have hcollection := capture_collectionTemplate hpath hne
  have htype := capture_typeTemplate hpath
  -- the templates of other collections do not match
  have hother : ∀ collection, r.types ≠ collection →
      (collectionTemplate collection).capture rest = none ∧
      (typeTemplate collection).capture rest = none ∧ ∀ items,
        (itemTemplate collection items).capture rest = none ∧
        (itemsTemplate collection items).capture rest = none := by
    intro collection hdiffers
    refine ⟨?_, ?_, fun items => ⟨?_, ?_⟩⟩
    · exact capture_of_ne rfl hpath hdiffers
    · exact capture_of_ne rfl hpath hdiffers
    · exact capture_of_ne rfl hpath hdiffers
    · exact capture_of_ne rfl hpath hdiffers
  cases r with
  | artifact =>
      have hexecutions := hother "execution_types" (by decide)
      simp only [Resource.items, Resource.types] at hitem hitems hcollection htype ⊢
      simp only [getBindings, List.findSome?_cons, hitem, hitems, hcollection, htype, hexecutions,
        hother "artifacts" (by decide), hother "executions" (by decide), Option.map_none]
      by_cases hbefore : segs.dropLast.getLast? = some "artifacts"
      · simp only [hbefore, if_true, Option.map_some, Resource.getItem]
      · by_cases hlast : segs.getLast? = some "artifacts"
        · simp only [hbefore, hlast, if_false, if_true, Option.map_none, Option.map_some,
            Resource.listItems]
        · simp only [hbefore, hlast, if_false, Option.map_none, Option.map_some, Resource.getType]
  | execution =>
      have hartifacts := hother "artifact_types" (by decide)
      simp only [Resource.items, Resource.types] at hitem hitems hcollection htype ⊢
      simp only [getBindings, List.findSome?_cons, hitem, hitems, hcollection, htype, hartifacts,
        hother "artifacts" (by decide), hother "executions" (by decide), Option.map_none]
      by_cases hbefore : segs.dropLast.getLast? = some "executions"
      · simp only [hbefore, if_true, Option.map_some, Resource.getItem]
      · by_cases hlast : segs.getLast? = some "executions"
        · simp only [hbefore, hlast, if_false, if_true, Option.map_none, Option.map_some,
            Resource.listItems]
        · simp only [hbefore, hlast, if_false, Option.map_none, Option.map_some, Resource.getType]

/-! ## Routes of a type -/

theorem typesCollection_eq (r : Resource) : r.typesCollection = r.types ++ "/" := by
  cases r <;> rfl

theorem segments_types (r : Resource) (T : String) :
    segments ("api/v1alpha1/" ++ r.typesCollection ++ T) =
      "api" :: "v1alpha1" :: r.types :: segments T := by
  have htext : "api/v1alpha1/" ++ r.typesCollection = "api/v1alpha1/" ++ r.types ++ "/" := by
    rw [typesCollection_eq, String.append_assoc]
  have hfront : segments ("api/v1alpha1/" ++ r.types) = ["api", "v1alpha1", r.types] := by
    cases r <;> decide +kernel
  rw [htext, segments_append, hfront]
  rfl

theorem join_types (r : Resource) (name : String) :
    join [r.types, name] = r.typesCollection ++ name := by
  have hpair : [r.types, name] = [r.types] ++ [name] := rfl
  rw [hpair, join_append (List.cons_ne_nil _ _) (List.cons_ne_nil _ _), join_singleton,
    join_singleton, typesCollection_eq]

theorem isPlain_of_digits {id : String} (hid : ∀ c ∈ id.toList, c.isDigit = true) :
    IsPlain id := by
  intro c hc
  have hdigit := hid c hc
  apply And.intro
  · rintro rfl
    cases hdigit
  · rintro rfl
    cases hdigit

theorem isPlain_types (r : Resource) : IsPlain ("/api/v1alpha1/" ++ r.typesCollection) := by
  cases r <;> decide +kernel

/-- `/api/v1alpha1/<types>/T` -/
def typePath (r : Resource) (T : String) (hT : IsPlain T) : RequestPath where
  text := "/api/v1alpha1/" ++ r.typesCollection ++ T
  plain := (isPlain_types r).append hT

/-- `/api/v1alpha1/<types>/T/<items>` -/
def itemsPath (r : Resource) (T : String) (hT : IsPlain T) : RequestPath where
  text := "/api/v1alpha1/" ++ r.typesCollection ++ (T ++ "/" ++ r.items)
  plain := (isPlain_types r).append ((hT.append (by decide +kernel)).append (by
    cases r <;> decide +kernel))

/-- `/api/v1alpha1/<types>/T/<items>/id` -/
def itemPath (r : Resource) (T id : String) (hT : IsPlain T)
    (hid : ∀ c ∈ id.toList, c.isDigit = true) : RequestPath where
  text := "/api/v1alpha1/" ++ r.typesCollection ++ (T ++ r.separator ++ id)
  plain := (isPlain_types r).append ((hT.append (by
    cases r <;> decide +kernel)).append (isPlain_of_digits hid))

theorem routeGet_below (r : Resource) {path : RequestPath} {T : String}
    (htext : path.text = "/api/v1alpha1/" ++ r.typesCollection ++ T) :
    routeGet path = some (
      if (segments T).dropLast.getLast? = some r.items then
        r.getItem (join [r.types, join (segments T).dropLast.dropLast, r.items,
          (segments T).getLast?.getD ""])
      else if (segments T).getLast? = some r.items then
        r.listItems (r.typesCollection ++ join (segments T).dropLast)
      else r.getType (r.typesCollection ++ T)) := by
  have hslash : "/api/v1alpha1/" ++ r.typesCollection ++ T =
      "/" ++ ("api/v1alpha1/" ++ r.typesCollection ++ T) := by
    rw [← String.append_assoc, ← String.append_assoc]
    rfl
  rw [routeGet_types r (htext.trans hslash) (segments_types r T) (segments_ne_nil T),
    join_types, join_types, join_segments]

theorem segments_items (r : Resource) : segments r.items = [r.items] := by
  cases r <;> decide +kernel

theorem slash_notMem_digits {id : String} (hid : ∀ c ∈ id.toList, c.isDigit = true) :
    '/' ∉ id.toList := by
  intro hslash
  cases hid '/' hslash

theorem separator_eq (r : Resource) : r.separator = "/" ++ r.items ++ "/" := by
  cases r <;> rfl

/-- **Routes.** Items of a type are always reached. Their list is reached exactly if the
type's last segment is not that of the items, and the type itself exactly if neither of its
last two segments is. -/
theorem routes_reach (r : Resource) {T id : String} (hT : IsPlain T)
    (hid : ∀ c ∈ id.toList, c.isDigit = true) :
    (routeGet (typePath r T hT) = some (r.getType (r.typesCollection ++ T)) ↔
      (segments T).getLast? ≠ some r.items ∧ (segments T).dropLast.getLast? ≠ some r.items) ∧
    (routeGet (itemsPath r T hT) = some (r.listItems (r.typesCollection ++ T)) ↔
      (segments T).getLast? ≠ some r.items) ∧
    routeGet (itemPath r T id hT hid) =
      some (r.getItem (r.typesCollection ++ (T ++ r.separator ++ id))) := by
  refine ⟨?_, ?_, ?_⟩
  · rw [routeGet_below r rfl]
    by_cases hbefore : (segments T).dropLast.getLast? = some r.items
    · simp [hbefore, (r.requests_differ _ _).1]
    · by_cases hlast : (segments T).getLast? = some r.items
      · simp [hbefore, hlast, (r.requests_differ _ _).2.1]
      · simp [hbefore, hlast]
  · have hsegs : segments (T ++ "/" ++ r.items) = segments T ++ [r.items] := by
      rw [segments_append, segments_items]
    rw [routeGet_below r rfl, hsegs, List.dropLast_concat, List.getLast?_concat, join_segments]
    by_cases hlast : (segments T).getLast? = some r.items
    · simp [hlast, (r.requests_differ _ _).2.2]
    · simp [hlast]
  · have htext : T ++ r.separator ++ id = T ++ "/" ++ r.items ++ "/" ++ id := by
      rw [separator_eq]
      simp only [String.append_assoc]
    have hsegs : segments (T ++ r.separator ++ id) = segments T ++ [r.items] ++ [id] := by
      rw [htext, segments_append, segments_append, segments_items,
        segments_of_notMem (slash_notMem_digits hid)]
    rw [routeGet_below r rfl, hsegs, List.dropLast_concat, List.getLast?_concat,
      List.dropLast_concat, List.getLast?_concat, if_pos rfl, join_segments, Option.getD_some]
    simp only [join, String.intercalate_cons_cons, String.intercalate_singleton, htext,
      typesCollection_eq, String.append_assoc]

/-- The three routes of an ordinary type. -/
theorem routes_reach_model :
    (∃ hT, routeGet (typePath .artifact "kubeflow.org/alpha/model" hT) =
      some (.getArtifactType "artifact_types/kubeflow.org/alpha/model")) ∧
    (∃ hT, routeGet (itemsPath .artifact "kubeflow.org/alpha/model" hT) =
      some (.listArtifacts "artifact_types/kubeflow.org/alpha/model")) ∧
    ∃ hT hid, routeGet (itemPath .artifact "kubeflow.org/alpha/model" "7" hT hid) =
      some (.getArtifact "artifact_types/kubeflow.org/alpha/model/artifacts/7") := by
  have hT : IsPlain "kubeflow.org/alpha/model" := by decide +kernel
  have hid : ∀ c ∈ "7".toList, c.isDigit = true := List.forall_mem_singleton.mpr rfl
  obtain ⟨htype, hitems, hitem⟩ := routes_reach .artifact hT hid
  refine ⟨⟨hT, htype.mpr ⟨?_, ?_⟩⟩, ⟨hT, hitems.mpr ?_⟩, ⟨hT, hid, hitem⟩⟩
  · decide +kernel
  · decide +kernel
  · decide +kernel

/-- The type `ns/artifacts` is a type name as any other, but its route leads to the list of
the artifacts of `ns`. -/
theorem artifacts_route_not_reached :
    ¬ ∀ (r : Resource) (T id : String) (hT : IsPlain T)
      (hid : ∀ c ∈ id.toList, c.isDigit = true), getNamespacedName T = .ok T →
      (∀ segment ∈ segments T, segment ≠ "") → id ≠ "" →
      routeGet (typePath r T hT) = some (r.getType (r.typesCollection ++ T)) ∧
      routeGet (itemsPath r T hT) = some (r.listItems (r.typesCollection ++ T)) ∧
      routeGet (itemPath r T id hT hid) =
        some (r.getItem (r.typesCollection ++ (T ++ r.separator ++ id))) := by
  intro hclaim
  have hT : IsPlain "ns/artifacts" := by decide +kernel
  have hid : ∀ c ∈ "7".toList, c.isDigit = true := List.forall_mem_singleton.mpr rfl
  have hname : getNamespacedName "ns/artifacts" = .ok "ns/artifacts" := rfl
  obtain ⟨htype, -⟩ := hclaim .artifact "ns/artifacts" "7" hT hid hname (by decide +kernel)
    (by decide)
  rw [routeGet_below .artifact rfl] at htype
  have hlast : (segments "ns/artifacts").getLast? = some Resource.artifact.items := by
    decide +kernel
  have hbefore : (segments "ns/artifacts").dropLast.getLast? ≠ some Resource.artifact.items := by
    decide +kernel
  rw [if_neg hbefore, if_pos hlast] at htype
  cases htype

end KfMetadata.Service
