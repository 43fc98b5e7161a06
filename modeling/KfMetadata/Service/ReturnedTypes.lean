/-
# The types that handlers return

A handler that puts a type answers with what it reads back: the type under the requested
name less its collection. That is the type that it has put if the name does not start with
the collection. If it does, a type of the shorter name may be stored as well, and then the
answer is that type. For the same reason a stored type whose name starts with its
collection cannot be read under its name, only with the collection put in front once more.
-/

import KfMetadata.Service.Atomicity
import KfMetadata.Service.Concurrency

namespace KfMetadata.Service

open Mlmd Remote Remote.Program

variable (E : Effect api Store) (s : Store)

/-- Whenever the handler succeeds it returns a type of the requested name, with the
properties that are stored under that name, which are the requested ones. -/
def ReturnsType (r : Resource) (handler : Handler TypeRecord) : Option TypeRecord → Prop
  | none => ∀ type t, ¬ handler.run.Runs E s (.ok type) t
  | some asked => ∀ type t, handler.run.Runs E s (.ok type) t →
      type.getName = asked.getName ∧ ∃ stored, t.findType r.kind asked.getName = some stored ∧
        stored.properties = asked.properties ∧ type.properties = stored.properties

/-- A request that puts a type returns what it wrote. -/
def ReturnsWritten : Request → Prop
  | .createArtifactType type => ReturnsType E s .artifact (createArtifactType type) type
  | .updateArtifactType type => ReturnsType E s .artifact (updateArtifactType type) type
  | .createExecutionType type => ReturnsType E s .execution (createExecutionType type) type
  | .updateExecutionType type => ReturnsType E s .execution (updateExecutionType type) type
  | _ => True

/-- When putting a type returns it: the store refuses it, its name does not start with the
collection, or no type of the name less the collection is stored. -/
def TypeReturnedWhen (r : Resource) (opts : PutTypeOptions) : Option TypeRecord → Prop
  | none => True
  | some type =>
      (∀ id t, ¬ E (.putType r.kind type opts) s (.ok id) t) ∨
      Text.trimPrefix type.getName r.typesCollection = type.getName ∨
      s.findType r.kind (Text.trimPrefix type.getName r.typesCollection) = none

def ReturnedWhen : Request → Prop
  | .createArtifactType type => TypeReturnedWhen E s .artifact createOptions type
  | .updateArtifactType type => TypeReturnedWhen E s .artifact updateOptions type
  | .createExecutionType type => TypeReturnedWhen E s .execution createOptions type
  | .updateExecutionType type => TypeReturnedWhen E s .execution updateOptions type
  | _ => True

/-- The handler that returns a type by its name. -/
def getTypeHandler : Resource → String → Handler TypeRecord
  | .artifact => getArtifactType
  | .execution => getExecutionType

/-- Every stored type is returned under its name, and under its name in the collection. -/
def ReadByName : Prop :=
  ∀ (r : Resource) (stored : StoredType), stored ∈ s.contents.types r.kind →
    ∀ name ∈ [stored.name, r.typesCollection ++ stored.name],
      ∀ reply t, (getTypeHandler r name).run.Runs E s reply t →
        ∃ type, reply = .ok type ∧ type.getName = stored.name

/-- No stored type has a name that starts with its collection. -/
def NamesOutsideCollections : Prop :=
  ∀ (r : Resource) (stored : StoredType), stored ∈ s.contents.types r.kind →
    Text.trimPrefix stored.name r.typesCollection = stored.name

variable {E s}

theorem getTypeHandler_eq (r : Resource) (name : String) :
    getTypeHandler r name = getType r name := by
  cases r <;> rfl

/-! ## Puts -/

theorem typeReturned_iff (hE : Available E) {r : Resource} {opts : PutTypeOptions}
    {type : Option TypeRecord} :
    ReturnsType E s r (putType r opts type) type ↔ TypeReturnedWhen E s r opts type := by
  cases type with
  | none =>
      refine iff_of_true (fun type t hrun => ?_) trivial
      cases (runs_run_throw.mp hrun).1
  | some asked =>
      apply Iff.intro
      · intro hreturns
        by_contra hnot
        simp only [TypeReturnedWhen, not_or, not_forall, not_not] at hnot
        obtain ⟨⟨id, u, hput⟩, htrim, hstored⟩ := hnot
        obtain ⟨other, hother⟩ := Option.ne_none_iff_exists'.mp hstored
        -- The put leaves the other type in place, and that one is read back.
        have hread : u.findType r.kind (Text.trimPrefix asked.getName r.typesCollection) =
            some other := by
          rw [(findType_of_putType hE.toLawful hput).2 _ htrim, hother]
        have hget := runs_getType_of_stored hE hread
        obtain ⟨hname, -⟩ := hreturns _ _ (runs_putType.mpr (Or.inr ⟨id, u, hput, hget⟩))
        exact htrim ((Keyed.key_of_find hother).symm.trans hname)
      · rintro hwhen type t hrun
        rcases runs_putType.mp hrun with ⟨message, hrefused, -⟩ | ⟨id, u, hput, hget⟩
        · cases hrefused
        · obtain ⟨hself, hothers⟩ := findType_of_putType hE.toLawful hput
          obtain ⟨rfl, found, hfound, rfl⟩ := getType_ok hE.toLawful hget
          rcases hwhen with hnever | htrim | hmissing
          · exact absurd hput (hnever id t)
          · rw [htrim, hself] at hfound
            cases hfound
            exact ⟨rfl, _, hself, rfl, rfl⟩
          · by_cases htrim : Text.trimPrefix asked.getName r.typesCollection = asked.getName
            · rw [htrim, hself] at hfound
              cases hfound
              exact ⟨rfl, _, hself, rfl, rfl⟩
            · rw [hothers _ htrim, hmissing] at hfound
              cases hfound

theorem returnsWritten_iff (hE : Available E) (request : Request) :
    ReturnsWritten E s request ↔ ReturnedWhen E s request := by
  cases request with
  | createArtifactType type => exact typeReturned_iff hE
  | updateArtifactType type => exact typeReturned_iff hE
  | createExecutionType type => exact typeReturned_iff hE
  | updateExecutionType type => exact typeReturned_iff hE
  | _ => exact Iff.rfl

/-! ## Reads -/

theorem readByName_iff (hE : Available E) : ReadByName E s ↔ NamesOutsideCollections s := by
  apply Iff.intro
  · intro hread r stored hstored
    obtain ⟨reply, t, hrun⟩ := exists_runs hE.responds (getTypeHandler r stored.name).run s
    obtain ⟨type, rfl, hname⟩ := hread r stored hstored _ List.mem_cons_self reply t hrun
    rw [getTypeHandler_eq] at hrun
    obtain ⟨rfl, found, hfound, rfl⟩ := getType_ok hE.toLawful hrun
    exact (Keyed.key_of_find hfound).symm.trans hname
  · intro houtside r stored hstored name hname reply t hrun
    have htrim : Text.trimPrefix name r.typesCollection = stored.name := by
      rcases List.mem_pair.mp hname with rfl | rfl
      · exact houtside r stored hstored
      · exact Text.trimPrefix_append _ _
    have hfind : s.findType r.kind (Text.trimPrefix name r.typesCollection) = some stored := by
      rw [htrim]
      exact Store.findType_eq_some_iff.mpr ⟨hstored, rfl⟩
    rw [getTypeHandler_eq] at hrun
    cases reply with
    | error e =>
        obtain ⟨-, hmissing⟩ := getType_error_of_available hE hrun
        rw [hfind] at hmissing
        cases hmissing
    | ok type =>
        obtain ⟨rfl, found, hfound, rfl⟩ := getType_ok hE.toLawful hrun
        rw [hfind] at hfound
        cases hfound
        exact ⟨_, rfl, rfl⟩

/-- **Types are returned as written.** Against an available store, a request that puts a
type returns the type that it wrote if and only if `ReturnedWhen` holds, and every stored
type is read under both its names if and only if none of them starts with its collection. -/
theorem returned_types_iff (hE : Available E) (s : Store) :
    (∀ request, ReturnsWritten E s request ↔ ReturnedWhen E s request) ∧
      (ReadByName E s ↔ NamesOutsideCollections s) :=
  ⟨returnsWritten_iff hE, readByName_iff hE⟩

/-- The store after a type of the given name has been put. -/
def withType (name : String) : Store :=
  (inMemory (.putType .artifact ⟨none, some name, ∅⟩ createOptions) Store.empty).2

/-- The state with that store, before the type is read back. -/
theorem steps_withType (name : String) :
    ∃ c, (clients Unit).Steps inMemory.effect noEnvironment (start Unit) c ∧
      c.state = withType name :=
  ⟨_, (Relation.ReflTransGen.single (Clients.Step.start () ()
    (.createArtifactType (some ⟨none, some name, ∅⟩)) rfl trivial)).tail
      (Clients.Step.call () () _ _ _ _ _ rfl rfl), rfl⟩

/-- With a type `m` stored, creating `artifact_types/m` returns the type `m`; and when
`artifact_types/m` is stored, it cannot be read under its name. -/
theorem type_not_returned :
    (¬ ∀ (E : Effect api Store), Available E → ∀ (s : Store) (request : Request),
      ReturnsWritten E s request) ∧
    ¬ ∀ (E : Effect api Store), Available E → ∀ c,
      (clients Unit).Steps E noEnvironment (start Unit) c → ReadByName E c.state := by
  apply And.intro
  · intro hclaim
    have hreturns := hclaim inMemory.effect inMemory_available (withType "m")
      (.createArtifactType (some ⟨none, some "artifact_types/m", ∅⟩))
    have hrun := runs_run_of_toOption inMemory
      (createArtifactType (some ⟨none, some "artifact_types/m", ∅⟩)) (withType "m")
      (a := ⟨some 1, some "m", ∅⟩) (by decide +kernel)
    exact absurd (hreturns _ _ hrun).1 (by decide)
  · intro hclaim
    obtain ⟨c, hsteps, hstate⟩ := steps_withType "artifact_types/m"
    have hread := hclaim inMemory.effect inMemory_available c hsteps
    rw [hstate] at hread
    have houtside := (readByName_iff inMemory_available).mp hread .artifact
      ⟨1, "artifact_types/m", ∅⟩ (by decide +kernel)
    exact absurd houtside (by decide)

/-- A type whose name does not start with the collection is returned and read. -/
theorem returned_types_m :
    ReturnsWritten inMemory.effect (withType "m")
        (.updateArtifactType (some ⟨none, some "m", ∅⟩)) ∧
      ReadByName inMemory.effect (withType "m") := by
  obtain ⟨hwritten, hread⟩ := returned_types_iff inMemory_available (withType "m")
  refine ⟨(hwritten _).mpr (Or.inr (Or.inl (by decide))), hread.mpr fun r stored hstored => ?_⟩
  have hall : ∀ r : Resource, ∀ stored ∈ (withType "m").contents.types r.kind,
      Text.trimPrefix stored.name r.typesCollection = stored.name := by
    intro r
    cases r <;> decide +kernel
  exact hall r stored hstored

end KfMetadata.Service
