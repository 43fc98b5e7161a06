/-
# Failed requests

A handler that writes reads its record back before it answers, and answers with
an error when the reading fails, after the write has been made. Whether it then
leaves the store as it was depends on how the text it was given passes through
the two ways of naming a record: a type is put under its name as given and read
back under its name less the collection, an instance is put under its parent's
type and read back under an id parsed from the parent. The condition below is
exact.
-/

import KfMetadata.Mlmd.InMemory
import KfMetadata.Service.Specs

namespace KfMetadata.Service

open Mlmd Remote Remote.Program

variable (E : Effect api Store) (s : Store)

/-- A request that fails leaves the store as it was. -/
def Atomic (request : Request) : Prop :=
  ∀ e t, (handle request).run.Runs E s (.error e) t → t = s

/-- When putting a type is atomic: the store refuses it, it is stored already with
these properties, or it is read back under a name that is stored afterwards. -/
def TypeAtomicWhen (r : Resource) (opts : PutTypeOptions) : Option TypeRecord → Prop
  | none => True
  | some type =>
      (∀ id t, ¬ E (.putType r.kind type opts) s (.ok id) t) ∨
      (∃ old, s.findType r.kind type.getName = some old ∧ old.properties = type.properties) ∨
      Text.trimPrefix type.getName r.typesCollection = type.getName ∨
      (s.findType r.kind (Text.trimPrefix type.getName r.typesCollection)).isSome

/-- When creating a record is atomic: it has an id, its parent's type is not
stored, or under every id that the store may give it, the name built from the
parent parses to that id or to one that is stored already. -/
def ItemAtomicWhen (r : Resource) (parent : String) : Option (Item r.kind) → Prop
  | none => True
  | some item => item.id.isSome ∨
      ∀ type, s.findType r.kind (Text.trimPrefix parent r.typesCollection) = some type →
        ∀ id t, E (.putItems r.kind [typedItem type item]) s (.ok [id]) t →
          ∃ found, parseInstanceName r (instanceName r parent id) = .ok found ∧
            (found = id ∨ (s.findItem r.kind found).isSome)

/-- When a request is atomic. -/
def AtomicWhen : Request → Prop
  | .createArtifactType type => TypeAtomicWhen E s .artifact createOptions type
  | .updateArtifactType type => TypeAtomicWhen E s .artifact updateOptions type
  | .createExecutionType type => TypeAtomicWhen E s .execution createOptions type
  | .updateExecutionType type => TypeAtomicWhen E s .execution updateOptions type
  | .createArtifact parent item => ItemAtomicWhen E s .artifact parent item
  | .createExecution parent item => ItemAtomicWhen E s .execution parent item
  | _ => True

variable {E s}

/-! ## Types -/

/-- What a successful put of a type leaves stored under its name. -/
theorem findType_of_putType (hE : Lawful E) {k : Kind} {type : TypeRecord}
    {opts : PutTypeOptions} {id : Int} {u : Store}
    (hput : E (.putType k type opts) s (.ok id) u) :
    u.findType k type.getName = some ⟨id, type.getName, type.properties⟩ ∧
      ∀ name, name ≠ type.getName → u.findType k name = s.findType k name := by
  have hdoc := hE.accepted (.putType k type opts) s u id hput
  exact ⟨PutType.findType hdoc, fun name hname => PutType.findType_of_ne hdoc hname⟩

/-- Putting a type that is stored with the same properties changes nothing. -/
theorem putType_of_same (hE : Lawful E) {k : Kind} {type : TypeRecord} {opts : PutTypeOptions}
    {id : Int} {u : Store} {old : StoredType} (hput : E (.putType k type opts) s (.ok id) u)
    (hold : s.findType k type.getName = some old) (hsame : old.properties = type.properties) :
    u = s := by
  have hdoc := hE.accepted (.putType k type opts) s u id hput
  rw [Store.findType] at hold
  simp only [Documented, PutType, hold] at hdoc
  obtain ⟨-, -, hu⟩ := hdoc
  apply Store.ext
  rw [hu, ← hsame]
  exact Contents.setProperties_of_same s.wellFormed hold

theorem putType_atomic_of_when (hE : Available E) {r : Resource} {opts : PutTypeOptions}
    {type : Option TypeRecord} (hwhen : TypeAtomicWhen E s r opts type) (e : GoError) (t : Store)
    (hrun : (putType r opts type).run.Runs E s (.error e) t) : t = s := by
  cases type with
  | none => exact ((runs_run_throw).mp hrun).2.symm
  | some type =>
      rcases runs_putType.mp hrun with ⟨message, -, hrefused⟩ | ⟨id, u, hput, hget⟩
      · exact hE.refused _ s t message hrefused
      · obtain ⟨rfl, hmissing⟩ := getType_error_of_available hE hget
        obtain ⟨hself, hother⟩ := findType_of_putType hE.toLawful hput
        rcases hwhen with hnever | ⟨old, hold, hsame⟩ | htrim | hstored
        · exact absurd hput (hnever id t)
        · exact putType_of_same hE.toLawful hput hold hsame
        · rw [htrim, hself] at hmissing
          cases hmissing
        · by_cases hname : Text.trimPrefix type.getName r.typesCollection = type.getName
          · rw [hname, hself] at hmissing
            cases hmissing
          · rw [hother _ hname] at hmissing
            rw [hmissing] at hstored
            cases hstored

theorem typeAtomicWhen_of_atomic (hE : Available E) {r : Resource} {opts : PutTypeOptions}
    {type : Option TypeRecord}
    (hatomic : ∀ e t, (putType r opts type).run.Runs E s (.error e) t → t = s) :
    TypeAtomicWhen E s r opts type := by
  cases type with
  | none => trivial
  | some type =>
      by_contra hnot
      simp only [TypeAtomicWhen, not_or, not_forall, not_not, not_exists, not_and,
        Option.not_isSome_iff_eq_none] at hnot
      obtain ⟨⟨id, u, hput⟩, hchanged, htrim, hmissing⟩ := hnot
      obtain ⟨hself, hother⟩ := findType_of_putType hE.toLawful hput
      -- The type is put, but not found under the trimmed name.
      rw [← hother _ htrim] at hmissing
      obtain ⟨e, hget⟩ := runs_getType_of_missing hE hmissing
      obtain rfl : u = s := hatomic e u (runs_putType.mpr (Or.inr ⟨id, u, hput, hget⟩))
      exact hchanged _ hself rfl

/-! ## Records -/

theorem createItem_atomic_of_when (hE : Available E) {r : Resource} {parent : String}
    {item : Option (Item r.kind)} (hwhen : ItemAtomicWhen E s r parent item) (e : GoError)
    (t : Store) (hrun : (createItem r parent item).run.Runs E s (.error e) t) : t = s := by
  cases item with
  | none => exact (runs_run_throw.mp hrun).2.symm
  | some item =>
      by_cases hid : item.id.isSome = true
      · simp only [createItem, if_pos hid] at hrun
        exact (runs_run_throw.mp hrun).2.symm
      · have hnew : item.id = none := by simpa using hid
        have hnames := hwhen.resolve_left hid
        rcases runs_createItem hE.toLawful hnew hrun with
          ⟨cause, -, hget⟩ | ⟨type, htype, ⟨message, -, hrefused⟩ | ⟨id, u, hput, hread⟩⟩
        · exact getType_error hE.toLawful hget
        · exact hE.refused _ s t message hrefused
        · -- The record is stored and its name parses to a stored id: reading succeeds.
          obtain ⟨found, hparse, hfound⟩ := hnames type htype id u hput
          obtain ⟨-, hmissing⟩ := getStored_error hE hread
          have hnone := hmissing found hparse
          obtain ⟨id', hids, -, hfresh, -, -, hu⟩ :=
            (putItems_singleton (x := typedItem type item) hnew).mp
              (hE.accepted (.putItems r.kind _) s u [id] hput)
          obtain rfl := List.singleton_inj.mp hids
          rw [Store.findItem, hu] at hnone
          by_cases hsame : found = id
          · subst hsame
            rw [Contents.findItem_addItem_self rfl hfresh] at hnone
            cases hnone
          · rw [Contents.findItem_addItem_of_ne fun _ heq =>
              hsame (Option.some.inj heq).symm] at hnone
            have hstored := hfound.resolve_left hsame
            rw [Store.findItem, hnone] at hstored
            cases hstored

theorem itemAtomicWhen_of_atomic (hE : Available E) {r : Resource} {parent : String}
    {item : Option (Item r.kind)}
    (hatomic : ∀ e t, (createItem r parent item).run.Runs E s (.error e) t → t = s) :
    ItemAtomicWhen E s r parent item := by
  cases item with
  | none => trivial
  | some item =>
      by_cases hid : item.id.isSome = true
      · exact Or.inl hid
      · have hnew : item.id = none := by simpa using hid
        apply Or.inr
        intro type htype id u hput
        obtain ⟨id', hids, -, hfresh, -, -, hu⟩ :=
          (putItems_singleton (x := typedItem type item) hnew).mp
            (hE.accepted (.putItems r.kind _) s u [id] hput)
        obtain rfl := List.singleton_inj.mp hids
        by_contra hnames
        -- Otherwise the record is stored and cannot be read back.
        have hmissing : ∀ found, parseInstanceName r (instanceName r parent id) = .ok found →
            u.findItem r.kind found = none := by
          intro found hparse
          have hneither : ¬ (found = id ∨ (s.findItem r.kind found).isSome) := fun hfound =>
            hnames ⟨found, hparse, hfound⟩
          rw [not_or, Option.not_isSome_iff_eq_none] at hneither
          rw [Store.findItem, hu, Contents.findItem_addItem_of_ne fun _ heq =>
            hneither.1 (Option.some.inj heq).symm]
          exact hneither.2
        obtain ⟨e, hread⟩ := runs_getStored_of_missing hE hmissing
        obtain rfl : u = s := hatomic e u (runs_createItem_of_put hE hnew htype hput hread)
        have hstored : u.contents.findItem r.kind id = some (storedItem type item id) := by
          rw [hu]
          exact Contents.findItem_addItem_self rfl hfresh
        rw [hfresh] at hstored
        cases hstored

/-! ## All requests -/

/-- A request that only reads is atomic. -/
theorem atomic_of_no_write (hE : Lawful E) {request : Request}
    (hreads : ∀ op, ¬ request.Writes op) : Atomic E s request := by
  intro e t hrun
  apply hrun.state_eq (uses_handle request)
  intro op u reply v hallowed heffect
  exact hE.sound.read (hallowed.resolve_right (hreads op)) heffect

/-- **Atomicity.** A request against an available store leaves the store as it was
whenever it fails, if and only if `AtomicWhen` holds of it and the store. -/
theorem atomic_iff (hE : Available E) (request : Request) :
    Atomic E s request ↔ AtomicWhen E s request := by
  have hreads : (∀ op, ¬ request.Writes op) → (Atomic E s request ↔ True) := fun hreads =>
    iff_of_true (atomic_of_no_write hE.toLawful hreads) trivial
  cases request with
  | createArtifactType type =>
      exact ⟨typeAtomicWhen_of_atomic hE, putType_atomic_of_when hE⟩
  | updateArtifactType type =>
      exact ⟨typeAtomicWhen_of_atomic hE, putType_atomic_of_when hE⟩
  | createExecutionType type =>
      exact ⟨typeAtomicWhen_of_atomic hE, putType_atomic_of_when hE⟩
  | updateExecutionType type =>
      exact ⟨typeAtomicWhen_of_atomic hE, putType_atomic_of_when hE⟩
  | createArtifact parent item =>
      exact ⟨itemAtomicWhen_of_atomic hE, createItem_atomic_of_when hE⟩
  | createExecution parent item =>
      exact ⟨itemAtomicWhen_of_atomic hE, createItem_atomic_of_when hE⟩
  | createEvent event =>
      refine iff_of_true (fun e t hrun => ?_) trivial
      obtain ⟨message, -, hrefused⟩ := (runs_storeCall_error (.putEvents [event])).mp hrun
      exact hE.refused _ s t message hrefused
  | _ => exact hreads fun op hwrites => by cases hwrites

/-- A type name that starts with the collection is stored and reported as an error. -/
theorem createArtifactType_not_atomic :
    ¬ ∀ (E : Effect api Store), Available E → ∀ (s : Store) (request : Request),
      Atomic E s request := by
  intro hclaim
  have hatomic := hclaim inMemory.effect inMemory_available Store.empty
    (.createArtifactType (some ⟨none, some "artifact_types/m", ∅⟩))
  have hstored := hatomic (.text "refused") _ (runs_effect_iff.mpr rfl)
  have hcount := congrArg (fun s => (s.contents.types .artifact).length) hstored
  exact absurd hcount (by decide)

/-- A store with a type of no properties. -/
def oneType : Store :=
  ((handle (.createArtifactType (some ⟨none, some "m", ∅⟩))).run.run inMemory Store.empty).2

/-- The type is asked for with a property, which the store refuses. -/
theorem createArtifactType_atomic : ∃ e t,
    (handle (.createArtifactType (some ⟨none, some "m", Finmap.singleton "p" .string⟩))).run.Runs
      inMemory.effect oneType (.error e) t ∧ t = oneType := by
  let type : TypeRecord := ⟨none, some "m", Finmap.singleton "p" .string⟩
  have hrefused : ∀ id t,
      ¬ inMemory.effect (.putType .artifact type createOptions) oneType (.ok id) t := by
    intro id t hput
    have herror : (inMemory (.putType .artifact type createOptions) oneType).1.toOption = none := by
      decide +kernel
    have hok : (inMemory (.putType .artifact type createOptions) oneType).1 = .ok id :=
      congrArg Prod.fst hput
    rw [hok] at herror
    cases herror
  have hatomic : Atomic inMemory.effect oneType (.createArtifactType (some type)) :=
    (atomic_iff inMemory_available _).mpr (Or.inl hrefused)
  have hrun : (handle (.createArtifactType (some type))).run.Runs inMemory.effect oneType
      (.error _) _ := runs_effect_iff.mpr rfl
  exact ⟨_, _, hrun, hatomic _ _ hrun⟩

end KfMetadata.Service
