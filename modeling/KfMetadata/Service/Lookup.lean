/-
# Reading back by name

The handlers that read an artifact or an execution look up the id that the name
ends in, and nothing else of the name. Names built by the create handlers are
therefore read back whatever the text of the type is, as long as it has no
newline; and a name whose type does not exist, or is not the record's, reads the
same record.
-/

import KfMetadata.Mlmd.InMemory
import KfMetadata.Service.Specs

namespace KfMetadata.Service

open Mlmd Remote Remote.Program

/-- A name built from a type text without newlines is looked up by its id. -/
theorem getStored_instanceName (r : Resource) {typeName : String} {id : Int}
    (hline : '\n' ∉ typeName.toList) (hnonneg : 0 ≤ id) (hrange : id < 2 ^ 63) :
    getStored r (instanceName r (r.typesCollection ++ typeName) id) = (do
      let items ← storeCall (.getItemsByID r.kind [id])
      onlyItem r r.notSingleStored items) := by
  rw [getStored, parseInstanceName_instanceName r hline hnonneg hrange]
  rfl

/-- The record that a create handler has just stored, and what it reads back. -/
theorem createItem_of_type {E : Effect api Store} (hE : Available E) (r : Resource)
    {typeName : String} (hline : '\n' ∉ typeName.toList) {s t : Store} {type : StoredType}
    {item : Item r.kind} {reply : Except GoError (Item r.kind)}
    (htype : s.findType r.kind typeName = some type) (hnew : item.id = none)
    (hrun : (createItem r (r.typesCollection ++ typeName) (some item)).run.Runs E s reply t) :
    (∃ message, reply = .error (.text message) ∧
        E (.putItems r.kind [typedItem type item]) s (.error message) t) ∨
      ∃ id, reply = .ok (storedItem type item id) ∧
        E (.putItems r.kind [typedItem type item]) s (.ok [id]) t ∧
        t.findItem r.kind id = some (storedItem type item id) := by
  have htrim : Text.trimPrefix (r.typesCollection ++ typeName) r.typesCollection = typeName :=
    Text.trimPrefix_append _ _
  rcases runs_createItem hE.toLawful hnew hrun with ⟨cause, -, hget⟩ | ⟨type', htype', hput⟩
  · obtain ⟨-, hnone⟩ := getType_error_of_available hE hget
    rw [htrim, htype] at hnone
    cases hnone
  · rw [htrim, htype] at htype'
    obtain rfl := Option.some.inj htype'
    rcases hput with ⟨message, rfl, hrefused⟩ | ⟨id, u, hput, hread⟩
    · exact Or.inl ⟨message, rfl, hrefused⟩
    · have hid : (typedItem type item).id = none := hnew
      obtain ⟨id', hids, hrange, hfresh, -, -, hstored⟩ :=
        (putItems_singleton hid).mp (hE.accepted (.putItems r.kind _) s u [id] hput)
      obtain rfl := (List.singleton_inj.mp hids)
      have hfind : u.findItem r.kind id = some (storedItem type item id) := by
        rw [Store.findItem, hstored]
        exact Contents.findItem_addItem_self rfl hfresh
      have hparse := parseInstanceName_instanceName r hline (Int.le_of_lt hrange.1) hrange.2
      cases reply with
      | error e =>
          obtain ⟨-, hmissing⟩ := getStored_error hE hread
          rw [hmissing id hparse] at hfind
          cases hfind
      | ok found =>
          obtain ⟨rfl, id', hparse', hfound⟩ := getStored_ok hE.toLawful hread
          rw [hparse] at hparse'
          obtain rfl := Except.ok.inj hparse'
          rw [hfind] at hfound
          obtain rfl := Option.some.inj hfound
          exact Or.inr ⟨id, rfl, hput, hfind⟩

/-- **Instance names decode what was encoded.** For a type text without newlines
and an id in range, the name that a create handler builds is looked up under
exactly that id; so creating a record under the name of a stored type returns
the record it has just stored, unless the store refuses it. -/
theorem instance_names_decode (r : Resource) (typeName : String)
    (hline : '\n' ∉ typeName.toList) :
    (∀ id : Int, 0 ≤ id → id < 2 ^ 63 →
      getStored r (instanceName r (r.typesCollection ++ typeName) id) = (do
        let items ← storeCall (.getItemsByID r.kind [id])
        onlyItem r r.notSingleStored items)) ∧
    ∀ E : Effect api Store, Available E → ∀ (s t : Store) (type : StoredType)
      (item : Item r.kind) (reply : Except GoError (Item r.kind)),
      s.findType r.kind typeName = some type → item.id = none →
      (createItem r (r.typesCollection ++ typeName) (some item)).run.Runs E s reply t →
      (∃ message, reply = .error (.text message) ∧
          E (.putItems r.kind [typedItem type item]) s (.error message) t) ∨
        ∃ id, reply = .ok (storedItem type item id) ∧
          E (.putItems r.kind [typedItem type item]) s (.ok [id]) t ∧
          t.findItem r.kind id = some (storedItem type item id) :=
  ⟨fun _ hnonneg hrange => getStored_instanceName r hline hnonneg hrange,
    fun _ hE _ _ _ _ _ htype hnew hrun => createItem_of_type hE r hline htype hnew hrun⟩

/-- A store with one artifact type, whose name looks like the name of an artifact. -/
def nestedName : Store :=
  ((createArtifactType (some ⟨none, some "a/artifacts/5 artifact_types/", ∅⟩)).run.run
    inMemory Store.empty).2

/-- A type text that looks like a name of its own is read back all the same. -/
theorem instance_names_decode_nested :
    (getStored .artifact "artifact_types/a/artifacts/5 artifact_types//artifacts/7" = (do
      let items ← storeCall (.getItemsByID .artifact [7])
      onlyItem .artifact Resource.artifact.notSingleStored items)) ∧
    ((createArtifact "artifact_types/a/artifacts/5 artifact_types/"
      (some ⟨none, none, ∅, ∅, none⟩)).run.run inMemory nestedName).1.toOption =
        some ⟨some 1, some 1, ∅, ∅, none⟩ := by
  have hdecode := instance_names_decode .artifact "a/artifacts/5 artifact_types/" (by decide)
  refine ⟨hdecode.1 7 (by decide) (by decide), ?_⟩
  rcases hdecode.2 inMemory.effect inMemory_available nestedName _
    ⟨1, "a/artifacts/5 artifact_types/", ∅⟩ ⟨none, none, ∅, ∅, none⟩ _ (by decide) rfl
    (runs_effect_iff.mpr rfl) with ⟨message, -, hrefused⟩ | ⟨id, hreply, hput, -⟩
  · cases (inMemory_error hrefused).1
  · have hid : [id] = [1] := by
      have hstep := inMemory_ok hput
      exact (congrArg Prod.fst (Option.some.inj hstep)).symm
    obtain rfl := List.singleton_inj.mp hid
    exact congrArg Except.toOption hreply

/-! ## The type in a name -/

/-- A read in an available store succeeds exactly with the stored record under
the id that the name gives. -/
theorem getStored_iff {E : Effect api Store} (hE : Available E) {r : Resource} {name : String}
    {s t : Store} {item : Item r.kind} :
    (getStored r name).run.Runs E s (.ok item) t ↔
      t = s ∧ ∃ id, parseInstanceName r name = .ok id ∧ s.findItem r.kind id = some item := by
  apply Iff.intro
  · exact getStored_ok hE.toLawful
  · rintro ⟨rfl, id, hparse, hstored⟩
    exact runs_getStored_of_stored hE hparse hstored

/-- **The type in a name is not consulted.** Reading the instance of a type text
and an id returns a stored record under the id that the name gives, and for a
type text without newlines that is exactly the record stored under `id`, whether
or not the text names its type or any type at all. -/
theorem get_ignores_type {E : Effect api Store} (hE : Available E) (r : Resource)
    (typeName : String) (id : Int) (s t : Store) (item : Item r.kind) :
    ((getStored r (instanceName r (r.typesCollection ++ typeName) id)).run.Runs E s (.ok item) t ↔
      t = s ∧ ∃ found,
        parseInstanceName r (instanceName r (r.typesCollection ++ typeName) id) = .ok found ∧
          s.findItem r.kind found = some item) ∧
    ('\n' ∉ typeName.toList → 0 ≤ id → id < 2 ^ 63 →
      ((getStored r (instanceName r (r.typesCollection ++ typeName) id)).run.Runs E s
          (.ok item) t ↔
        t = s ∧ s.findItem r.kind id = some item)) := by
  refine ⟨getStored_iff hE, fun hline hnonneg hrange => ?_⟩
  rw [getStored_iff hE, parseInstanceName_instanceName r hline hnonneg hrange]
  simp

/-- A store with two artifact types and an artifact of the first. -/
@[irreducible]
def twoTypes : Store :=
  ((do
    let _ ← createArtifactType (some ⟨none, some "A", ∅⟩)
    let _ ← createArtifactType (some ⟨none, some "B", ∅⟩)
    createArtifact "artifact_types/A" (some ⟨none, none, ∅, ∅, none⟩) : Handler Artifact).run.run
      inMemory Store.empty).2

theorem twoTypes_findItem :
    twoTypes.findItem .artifact 1 = some ⟨some 1, some 1, ∅, ∅, none⟩ := by
  decide +kernel

theorem twoTypes_findType : twoTypes.findType .artifact "B" = some ⟨2, "B", ∅⟩ := by
  decide +kernel

/-- The artifact of type `A` is read under the name of type `B`. -/
theorem get_under_other_type :
    ¬ ∀ (E : Effect api Store), Available E → ∀ (r : Resource) (typeName : String) (id : Int)
      (s t : Store) (item : Item r.kind),
      (getStored r (instanceName r (r.typesCollection ++ typeName) id)).run.Runs E s (.ok item) t →
      ∃ type, s.findType r.kind typeName = some type ∧ item.typeId = some type.id := by
  intro hclaim
  have hparse : parseInstanceName .artifact
      (instanceName .artifact (Resource.artifact.typesCollection ++ "B") 1) = .ok 1 :=
    parseInstanceName_instanceName .artifact (by decide) (by decide) (by decide)
  have hread := runs_getStored_of_stored inMemory_available hparse twoTypes_findItem
  obtain ⟨type, htype, hid⟩ := hclaim inMemory.effect inMemory_available .artifact "B" 1
    twoTypes twoTypes _ hread
  rw [twoTypes_findType] at htype
  obtain rfl := Option.some.inj htype
  exact absurd hid (by decide)

/-- Reading the artifact under either type name, or that of no type, returns it. -/
theorem get_ignores_type_example :
    (getStored .artifact "artifact_types/B/artifacts/1").run.Runs inMemory.effect twoTypes
        (.ok ⟨some 1, some 1, ∅, ∅, none⟩) twoTypes ∧
      (getStored .artifact "artifact_types/none/artifacts/1").run.Runs inMemory.effect twoTypes
        (.ok ⟨some 1, some 1, ∅, ∅, none⟩) twoTypes :=
  ⟨((get_ignores_type inMemory_available .artifact "B" 1 _ _ _).2 (by decide) (by decide)
      (by decide)).mpr ⟨rfl, twoTypes_findItem⟩,
    ((get_ignores_type inMemory_available .artifact "none" 1 _ _ _).2 (by decide) (by decide)
      (by decide)).mpr ⟨rfl, twoTypes_findItem⟩⟩

end KfMetadata.Service
