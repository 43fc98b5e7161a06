/-
# Listing the artifacts of a workspace

A workspace lists its artifacts of a type by flattening every artifact of the type into
one record, and keeping the records that name the workspace. The workspace that an
artifact was logged in is a custom property; but in its record, a property of the name
"workspace" takes the place of it, and where there is neither, so does a key of the JSON
text of the artifact. So an artifact of another workspace, or of none, may be listed, one
of the workspace may be missing, and a text that is no JSON object makes the call raise
an exception in every workspace.
-/

import KfMetadata.Library.Fallible
import KfMetadata.Mlmd.InMemory
import KfMetadata.Sdk.Artifacts

namespace KfMetadata.Sdk

open Mlmd Remote

/-- A Python value that may be read from JSON; a float is its bits. -/
inductive PyValue
  | none
  | bool (value : Bool)
  | int (value : Int)
  | float (bits : BitVec 64)
  | str (text : String)
  | list (values : List PyValue)
  | dict (entries : List (String × PyValue))

namespace PyValue

def typeName : PyValue → String
  | .none => "NoneType"
  | .bool _ => "bool"
  | .int _ => "int"
  | .float _ => "float"
  | .str _ => "str"
  | .list _ => "list"
  | .dict _ => "dict"

/-- Whether the value equals a text. -/
def isText (text : String) : PyValue → Bool
  | .str text' => text' = text
  | _ => false

end PyValue

/-- An exception while listing: one of a call, a text that is no JSON, or a value without
items. -/
inductive ListError
  | raised (e : PyError)
  | jsonDecodeError (message : String)
  | attributeError (message : String)

/-- The items of a dictionary. -/
def PyValue.items : PyValue → Except ListError (List (String × PyValue))
  | .dict entries => .ok entries
  | value => .error (.attributeError ("'" ++ value.typeName ++ "' object has no attribute 'items'"))

/-- A flattened artifact. -/
abbrev FlatRecord : Type := StringMap PyValue

/-! ## Flattening -/

/-- The text of a property under a name of its own, if the property is there. -/
def setText (result : FlatRecord) (name : String) : Option Value → FlatRecord
  | none => result
  | some value => result.insert name (.str value.getString)

/-- What a record says of any artifact: its id, its workspace and its run. -/
def header (artifact : Artifact) : FlatRecord :=
  setText (setText (Finmap.singleton "id" (.int (artifact.id.getD 0)))
    "workspace" (artifact.customProperties.lookup workspacePropertyName))
    "run" (artifact.customProperties.lookup runPropertyName)

/-- The properties but for the JSON text. The text of a value is never missing: it is
empty for a number, so that numbers are not read. -/
def texts (properties : StringMap Value) : FlatRecord :=
  properties.filterMap fun name value =>
    if name = allMetaPropertyName then none else some (.str value.getString)

/-- Add entries under names that are not there yet. -/
def addMissing (result : FlatRecord) (entries : List (String × PyValue)) : FlatRecord :=
  entries.foldl (fun result entry =>
    if entry.1 ∈ result then result else result.insert entry.1 entry.2) result

/-- What JSON texts stand for. -/
abbrev Loads : Type := String → Except String PyValue

variable (loads : Loads)

/-- Flatten an artifact: its properties replace what the header says, and the items of its
JSON text are added where they are new. -/
def flat : Option Artifact → Except ListError FlatRecord
  | none => .error (.raised (.valueError "'artifact' must be set." []))
  | some artifact =>
      if artifact.properties = ∅ then .ok (header artifact)
      else
        let result := texts artifact.properties ∪ header artifact
        match artifact.properties.lookup allMetaPropertyName with
        | none => .ok result
        | some allMeta => do
            let value ← (loads allMeta.getString).mapError .jsonDecodeError
            let items ← value.items
            return addMissing result items

/-- Whether a record names a workspace. -/
def names (workspace : String) (record : FlatRecord) : Bool :=
  (record.lookup "workspace").any (PyValue.isText workspace)

/-- List the artifacts of a type, models if none is given. -/
def Workspace.list (self : Workspace) (artifactTypeName : Option String) :
    ExceptT ListError (Program api) (List FlatRecord) := do
  let typeName := artifactTypeName.getD Model.artifactTypeName
  let response ← ExceptT.adapt ListError.raised (retry (.getItemsByType .artifact typeName))
  ofResult (Fallible.collect (fun artifact => flat loads (some artifact)) (names self.name)
    response)

/-! ## What a record names -/

variable {loads} {artifact : Artifact} {record : FlatRecord} {workspace : String}

/-- The items of an artifact's JSON text; of a text that is missing there are none. -/
def MetaItems (loads : Loads) (artifact : Artifact) (entries : List (String × PyValue)) : Prop :=
  match artifact.properties.lookup allMetaPropertyName with
  | none => entries = []
  | some allMeta => loads allMeta.getString = .ok (.dict entries)

theorem items_eq_ok {value : PyValue} {entries : List (String × PyValue)} :
    value.items = .ok entries ↔ value = .dict entries := by
  cases value <;> simp [PyValue.items]

theorem texts_empty : texts ∅ = ∅ := by
  apply Finmap.ext_lookup
  intro name
  rw [texts, StringMap.lookup_filterMap, Finmap.lookup_empty, Finmap.lookup_empty]
  rfl

theorem flat_eq_ok : flat loads (some artifact) = .ok record ↔
    ∃ entries, MetaItems loads artifact entries ∧
      record = addMissing (texts artifact.properties ∪ header artifact) entries := by
  simp only [flat, MetaItems]
  split
  · rename_i hempty
    rw [hempty, Finmap.lookup_empty, texts_empty, Finmap.empty_union]
    apply Iff.intro
    · intro hheader
      cases hheader
      exact ⟨[], rfl, rfl⟩
    · rintro ⟨entries, rfl, rfl⟩
      rfl
  · cases artifact.properties.lookup allMetaPropertyName with
    | none =>
        apply Iff.intro
        · intro hresult
          cases hresult
          exact ⟨[], rfl, rfl⟩
        · rintro ⟨entries, rfl, rfl⟩
          rfl
    | some allMeta =>
        simp only [Fallible.bind_eq_ok, Fallible.mapError_eq_ok, items_eq_ok]
        apply Iff.intro
        · rintro ⟨value, hvalue, entries, rfl, hrecord⟩
          cases hrecord
          exact ⟨entries, hvalue, rfl⟩
        · rintro ⟨entries, hvalue, rfl⟩
          exact ⟨_, hvalue, entries, rfl, rfl⟩

theorem lookup_addMissing (result : FlatRecord) (entries : List (String × PyValue))
    (name : String) :
    (addMissing result entries).lookup name = (result.lookup name).or (entries.lookup name) := by
  induction entries generalizing result with
  | nil => simp [addMissing]
  | cons entry entries ih =>
      obtain ⟨key, value⟩ := entry
      have hstep : addMissing result ((key, value) :: entries) =
        addMissing (if key ∈ result then result else result.insert key value) entries := rfl
      rw [hstep, ih, List.lookup_cons]
      by_cases hsame : name = key
      · subst hsame
        by_cases hmem : name ∈ result
        · obtain ⟨old, hold⟩ := Finmap.mem_iff.mp hmem
          simp [hmem, hold]
        · simp [hmem, Finmap.lookup_eq_none.mpr hmem]
      · have hother : (if key ∈ result then result else result.insert key value).lookup name =
            result.lookup name := by
          split
          · rfl
          · exact Finmap.lookup_insert_of_ne _ hsame
        rw [hother, beq_eq_false_iff_ne.mpr hsame]

theorem lookup_texts (properties : StringMap Value) {name : String}
    (hname : name ≠ allMetaPropertyName) :
    (texts properties).lookup name =
      (properties.lookup name).map fun value => .str value.getString := by
  rw [texts, StringMap.lookup_filterMap]
  cases properties.lookup name with
  | none => rfl
  | some value => exact if_neg hname

theorem lookup_header :
    (header artifact).lookup "workspace" =
      (artifact.customProperties.lookup workspacePropertyName).map
        fun value => .str value.getString := by
  have hrun : ∀ (result : FlatRecord) value,
      (setText result "run" value).lookup "workspace" = result.lookup "workspace" := by
    intro result value
    cases value with
    | none => rfl
    | some value => exact Finmap.lookup_insert_of_ne _ (by decide)
  rw [header, hrun]
  cases artifact.customProperties.lookup workspacePropertyName with
  | none => rfl
  | some value => exact Finmap.lookup_insert _

/-- Properties come before the header. -/
theorem lookup_texts_union (properties : StringMap Value) (result : FlatRecord) {name : String}
    (hname : name ≠ allMetaPropertyName) :
    (texts properties ∪ result).lookup name =
      ((properties.lookup name).map fun value => .str value.getString).or
        (result.lookup name) := by
  rw [← lookup_texts properties hname]
  by_cases hmem : name ∈ texts properties
  · obtain ⟨value, hvalue⟩ := Finmap.mem_iff.mp hmem
    rw [Finmap.lookup_union_left hmem, hvalue, Option.some_or]
  · rw [Finmap.lookup_union_right hmem, Finmap.lookup_eq_none.mpr hmem, Option.none_or]

/-- Where a record has its workspace from. -/
theorem lookup_flat {entries : List (String × PyValue)} :
    (addMissing (texts artifact.properties ∪ header artifact) entries).lookup "workspace" =
      (((artifact.properties.lookup "workspace").map fun value => .str value.getString).or
        ((artifact.customProperties.lookup workspacePropertyName).map
          fun value => .str value.getString)).or (entries.lookup "workspace") := by
  rw [lookup_addMissing, lookup_texts_union _ _ (by decide), lookup_header]

/-! ## Artifacts that are told apart -/

/-- The artifact was logged in the workspace. -/
def IsLoggedIn (workspace : String) (artifact : Artifact) : Prop :=
  artifact.customProperties.lookup workspacePropertyName = some (.string workspace)

instance (workspace : String) (artifact : Artifact) :
    Decidable (IsLoggedIn workspace artifact) := inferInstanceAs (Decidable (_ = _))

/-- The artifact's JSON text is missing or an object, and neither that text nor its
properties name the workspace unless it was logged there, or hide that it was. -/
structure Separated (loads : Loads) (workspace : String) (artifact : Artifact) : Prop where
  readable : ∃ entries, MetaItems loads artifact entries
  /-- A property of the name "workspace" has the workspace's name exactly if the artifact
  was logged there. -/
  property : ∀ value, artifact.properties.lookup "workspace" = some value →
    (value.getString = workspace ↔ IsLoggedIn workspace artifact)
  /-- Without that property, the custom property is a text, or its text, which is empty,
  is not the workspace's name. -/
  custom : artifact.properties.lookup "workspace" = none → ∀ value,
    artifact.customProperties.lookup workspacePropertyName = some value →
      value.getString = workspace → value = .string workspace
  /-- Without both, the JSON text does not have the workspace's name. -/
  json : artifact.properties.lookup "workspace" = none →
    artifact.customProperties.lookup workspacePropertyName = none →
      ∀ entries text, MetaItems loads artifact entries →
        entries.lookup "workspace" = some (.str text) → text ≠ workspace

theorem MetaItems.unique {entries entries' : List (String × PyValue)}
    (hentries : MetaItems loads artifact entries) (hentries' : MetaItems loads artifact entries') :
    entries = entries' := by
  unfold MetaItems at hentries hentries'
  cases hmeta : artifact.properties.lookup allMetaPropertyName with
  | none =>
      rw [hmeta] at hentries hentries'
      exact hentries.trans hentries'.symm
  | some allMeta =>
      rw [hmeta] at hentries hentries'
      exact PyValue.dict.inj (Except.ok.inj (hentries.symm.trans hentries'))

theorem names_iff : names workspace record ↔ record.lookup "workspace" = some (.str workspace) := by
  rw [names, Option.any_eq_true]
  apply Iff.intro
  · rintro ⟨value, hvalue, htext⟩
    cases value with
    | str text => rw [hvalue, of_decide_eq_true htext]
    | _ => cases htext
  · intro hvalue
    exact ⟨_, hvalue, decide_eq_true rfl⟩

/-- An artifact is told apart exactly if it can be flattened, to a record that names the
workspace exactly if it was logged there. -/
theorem separated_iff : Separated loads workspace artifact ↔
    ∃ record, flat loads (some artifact) = .ok record ∧
      (names workspace record ↔ IsLoggedIn workspace artifact) := by
  apply Iff.intro
  · intro hseparated
    obtain ⟨entries, hentries⟩ := hseparated.readable
    refine ⟨_, flat_eq_ok.mpr ⟨entries, hentries, rfl⟩, ?_⟩
    rw [names_iff, lookup_flat]
    cases hproperty : artifact.properties.lookup "workspace" with
    | some value =>
        rw [← hseparated.property value hproperty]
        simp
    | none =>
        cases hcustom : artifact.customProperties.lookup workspacePropertyName with
        | some value =>
            have htext := hseparated.custom hproperty value hcustom
            rw [IsLoggedIn, hcustom]
            simp only [Option.map_none, Option.map_some, Option.none_or, Option.some_or,
              Option.some.injEq, PyValue.str.injEq]
            exact ⟨htext, fun hvalue => by rw [hvalue]; rfl⟩
        | none =>
            have htext := hseparated.json hproperty hcustom entries workspace hentries
            rw [IsLoggedIn, hcustom]
            simp only [Option.map_none, Option.none_or, reduceCtorEq, iff_false]
            exact fun hjson => htext hjson rfl
  · rintro ⟨record, hflat, hnames⟩
    obtain ⟨entries, hentries, rfl⟩ := flat_eq_ok.mp hflat
    rw [names_iff, lookup_flat] at hnames
    refine ⟨⟨entries, hentries⟩, ?_, ?_, ?_⟩
    · intro value hvalue
      simpa [hvalue] using hnames
    · intro hproperty value hcustom htext
      rw [hproperty, hcustom] at hnames
      have hlogged : IsLoggedIn workspace artifact := hnames.mp (by rw [← htext]; rfl)
      exact Option.some.inj (hcustom.symm.trans hlogged)
    · intro hproperty hcustom entries' text hentries' hjson htext
      rw [hproperty, hcustom, hentries.unique hentries', hjson, htext] at hnames
      have hlogged : IsLoggedIn workspace artifact := hnames.mp rfl
      rw [IsLoggedIn, hcustom] at hlogged
      cases hlogged

/-! ## The list of a workspace -/

/-- In this state, a lawful store returns these artifacts of the type that is listed. -/
structure Returns (server : Server api Store) (typeName : Option String) (s : Store)
    (pbs : List Artifact) : Prop where
  lawful : Lawful server.effect
  response :
    (server (.getItemsByType .artifact (typeName.getD Model.artifactTypeName)) s).1 = .ok pbs

variable (loads) (self : Workspace)

/-- What the call returns or raises in a state of the store. -/
def listed (server : Server api Store) (typeName : Option String) (s : Store) :
    Except ListError (List FlatRecord) := ((self.list loads typeName).run.run server s).1

/-- The flattened artifacts that were logged in the workspace. -/
def ownRecords (artifacts : List Artifact) : Except ListError (List FlatRecord) :=
  (artifacts.filter fun artifact => IsLoggedIn self.name artifact).mapM
    fun artifact => flat loads (some artifact)

/-- One of the workspace's own artifacts cannot be flattened, or all are told apart. -/
def AllSeparated (artifacts : List Artifact) : Prop :=
  (∃ a ∈ artifacts, IsLoggedIn self.name a ∧ ∀ entries, ¬ MetaItems loads a entries) ∨
    ∀ a ∈ artifacts, Separated loads self.name a

variable {loads self} {server server' : Server api Store} {typeName : Option String}
  {s s' : Store} {pbs pbs' : List Artifact}

/-- Every artifact of the type is returned, and no other. -/
theorem Returns.mem_iff (hreturns : Returns server typeName s pbs) {a : Artifact} :
    a ∈ pbs ↔ a ∈ s.contents.itemsOfType .artifact (typeName.getD Model.artifactTypeName) := by
  have hdoc := hreturns.lawful.accepted (.getItemsByType ..) s _ pbs
    (Prod.ext hreturns.response rfl)
  exact hdoc.2.mem_iff

/-- The call collects the records of what the store returns. -/
theorem Returns.listed_eq (hreturns : Returns server typeName s pbs) :
    listed loads self server typeName s =
      Fallible.collect (fun artifact => flat loads (some artifact)) (names self.name) pbs := by
  have hrun := Program.runs_of_run server (self.list loads typeName).run s
  rcases Program.runs_run_bind.mp hrun with ⟨e, -, herror⟩ | ⟨response, u, hget, hrest⟩
  · obtain ⟨e', -, hretry⟩ := Program.runs_adapt_error.mp herror
    obtain ⟨message, -, hcall⟩ := (runs_callOr_error _).mp hretry
    cases (congrArg Prod.fst hcall).symm.trans hreturns.response
  · have hcall := (runs_retry_ok (.getItemsByType ..)).mp (Program.runs_adapt_ok.mp hget)
    obtain rfl := Except.ok.inj ((congrArg Prod.fst hcall).symm.trans hreturns.response)
    exact (runs_ofResult.mp hrest).1.symm

theorem not_flat_iff : (∀ record, flat loads (some artifact) ≠ .ok record) ↔
    ∀ entries, ¬ MetaItems loads artifact entries := by
  apply Iff.intro
  · intro hnone entries hentries
    exact hnone _ (flat_eq_ok.mpr ⟨entries, hentries, rfl⟩)
  · intro hnone record hrecord
    obtain ⟨entries, hentries, -⟩ := flat_eq_ok.mp hrecord
    exact hnone entries hentries

/-- The own artifacts are listed exactly if all artifacts of the type are told apart, or
one of them cannot be flattened anyway. -/
theorem Returns.listed_iff (hreturns : Returns server typeName s pbs) :
    (∀ records, listed loads self server typeName s = .ok records ↔
      ownRecords loads self pbs = .ok records) ↔
    AllSeparated loads self
      (s.contents.itemsOfType .artifact (typeName.getD Model.artifactTypeName)) := by
  rw [hreturns.listed_eq]
  refine Fallible.collect_iff.trans (or_congr ?_ ?_)
  · apply exists_congr
    intro a
    exact and_congr hreturns.mem_iff (and_congr decide_eq_true_iff not_flat_iff)
  · apply forall_congr'
    intro a
    apply imp_congr hreturns.mem_iff
    rw [separated_iff]
    apply exists_congr
    intro record
    rw [Bool.eq_iff_iff, decide_eq_true_iff]

/-- Two states that agree on the own artifacts are listed alike. -/
theorem Returns.listed_congr (hreturns : Returns server typeName s pbs)
    (hreturns' : Returns server' typeName s' pbs')
    (hseparated : AllSeparated loads self
      (s.contents.itemsOfType .artifact (typeName.getD Model.artifactTypeName)))
    (hseparated' : AllSeparated loads self
      (s'.contents.itemsOfType .artifact (typeName.getD Model.artifactTypeName)))
    (hown : pbs.filter (fun a => IsLoggedIn self.name a) =
      pbs'.filter fun a => IsLoggedIn self.name a) (records : List FlatRecord) :
    listed loads self server typeName s = .ok records ↔
      listed loads self server' typeName s' = .ok records := by
  rw [hreturns.listed_iff.mpr hseparated, hreturns'.listed_iff.mpr hseparated', ownRecords,
    ownRecords, hown]

/-- **A workspace lists its own artifacts.** Whatever artifacts of the type the store
returns, in their order, the call returns exactly the records of those that were logged in
the workspace, or raises an exception since one of them cannot be flattened, if and only if
one of them cannot be, or all artifacts of the type are told apart. In two states where
that is so, and which agree on the own artifacts, the call does the same. -/
theorem list_isolated_iff (hreturns : Returns server typeName s pbs) :
    ((∀ records, listed loads self server typeName s = .ok records ↔
      ownRecords loads self pbs = .ok records) ↔
    AllSeparated loads self
      (s.contents.itemsOfType .artifact (typeName.getD Model.artifactTypeName))) ∧
    ∀ server' s' pbs', Returns server' typeName s' pbs' →
      AllSeparated loads self
        (s.contents.itemsOfType .artifact (typeName.getD Model.artifactTypeName)) →
      AllSeparated loads self
        (s'.contents.itemsOfType .artifact (typeName.getD Model.artifactTypeName)) →
      pbs.filter (fun a => IsLoggedIn self.name a) = pbs'.filter (fun a => IsLoggedIn self.name a) →
      ∀ records, listed loads self server typeName s = .ok records ↔
        listed loads self server' typeName s' = .ok records :=
  ⟨hreturns.listed_iff, fun _ _ _ hreturns' => hreturns.listed_congr hreturns'⟩

/-! ## A property of the name -/

/-- An artifact of a workspace, and one of another workspace with a property that names a
third. -/
def notes : List Artifact :=
  [⟨none, some 1, ∅, Finmap.singleton workspacePropertyName (.string "home"), some "gs://note"⟩,
    ⟨none, some 1, Finmap.singleton "workspace" (.string "ws"),
      Finmap.singleton workspacePropertyName (.string "other"), some "gs://note"⟩]

/-- A store with a type of notes, and these artifacts. -/
def withNotes : Store :=
  ((do
    let properties : StringMap PropertyType := Finmap.singleton "workspace" .string
    let _ ← call (.putType .artifact ⟨none, some "note", properties⟩ ⟨false, false, true⟩)
    call (.putItems .artifact notes)).run inMemory Store.empty).2

/-- What the store returns of them. -/
def storedNotes : List Artifact := withNotes.contents.itemsOfType .artifact "note"

theorem returns_notes : Returns inMemory (some "note") withNotes storedNotes :=
  ⟨inMemory_available.toLawful, rfl⟩

/-- Reads no text; the notes have none. -/
def noTexts : Loads := fun _ => .error "Expecting value: line 1 column 1 (char 0)"

/-- The home workspace lists the one note that was logged there. -/
theorem list_isolated_iff_home :
    listed noTexts ⟨"home", 1⟩ inMemory (some "note") withNotes =
      .ok [(Finmap.singleton "id" (.int 1)).insert "workspace" (.str "home")] := by
  have hseparated : AllSeparated noTexts ⟨"home", 1⟩ storedNotes := by
    refine Or.inr (List.forall_mem_cons.mpr ⟨?_, List.forall_mem_cons.mpr ⟨?_, nofun⟩⟩)
    · exact separated_iff.mpr ⟨_, rfl, by decide +kernel⟩
    · exact separated_iff.mpr ⟨_, rfl, by decide +kernel⟩
  exact ((list_isolated_iff returns_notes).1.mpr hseparated _).mpr rfl

/-- Whatever texts stand for, the third workspace lists the note of another one, which
names it. -/
theorem note_listed :
    ¬ ∃ loads : Loads, ∀ (server : Server api Store) (s : Store) (pbs : List Artifact)
      (self : Workspace) (typeName : Option String), Returns server typeName s pbs →
      ∀ records, listed loads self server typeName s = .ok records ↔
        ownRecords loads self pbs = .ok records := by
  intro ⟨loads, hclaim⟩
  have hempty : listed loads ⟨"ws", 1⟩ inMemory (some "note") withNotes = .ok [] :=
    (hclaim inMemory withNotes storedNotes ⟨"ws", 1⟩ (some "note") returns_notes []).mpr rfl
  cases hempty

end KfMetadata.Sdk
