/-
# Termination of the resolvers

Nothing that builds a set looks at cycles of references. On a cycle the search
for a property that no schema declares goes round for ever; without one every
resolver ends, and with it the registration of a directory. As the set only
grows, it is the files and the single additions that keep it free of cycles.
-/

import KfMetadata.Schema.Additions
import KfMetadata.Schema.Restart
import Mathlib.Data.Set.Finite.Lattice

namespace KfMetadata.Schema

open Mlmd Service Remote Remote.Program Acyclicity Relation

/-! ## Cycles -/

/-- Some schema declares the property, itself or in an `allOf` entry. -/
def Declared (ss : SchemaSet) (name : String) : Prop :=
  ∃ id schema, ss.lookup id = some schema ∧
    (name ∈ schema.properties ∨ ∃ parent ∈ schema.allOf, name ∈ parent.properties)

/-- A set declares finitely many properties. -/
theorem exists_not_declared (ss : SchemaSet) : ∃ name, ¬ Declared ss name := by
  have hfinite : {name | Declared ss name}.Finite := by
    have hschema : ∀ schema : SchemaJSON, {name | name ∈ schema.properties ∨
        ∃ parent ∈ schema.allOf, name ∈ parent.properties}.Finite := by
      intro schema
      apply Set.Finite.subset (s := ↑schema.properties.keys ∪
        ⋃ parent ∈ {parent | parent ∈ schema.allOf}, ↑parent.properties.keys)
      · apply (Finset.finite_toSet _).union
        apply (List.finite_toSet schema.allOf).biUnion
        intro parent _
        exact Finset.finite_toSet _
      · intro name hname
        rcases hname with hown | ⟨parent, hmem, hinherited⟩
        · exact Or.inl (Finmap.mem_keys.mpr hown)
        · exact Or.inr (Set.mem_biUnion hmem (Finmap.mem_keys.mpr hinherited))
    apply Set.Finite.subset (s := ⋃ id ∈ (↑ss.keys : Set String),
      ⋃ schema ∈ {schema | ss.lookup id = some schema}, {name | name ∈ schema.properties ∨
        ∃ parent ∈ schema.allOf, name ∈ parent.properties})
    · apply (Finset.finite_toSet _).biUnion
      intro id _
      apply Set.Finite.biUnion
      · apply Set.Subsingleton.finite
        intro schema hschema schema' hschema'
        exact Option.some.inj (hschema.symm.trans hschema')
      · intro schema _
        exact hschema schema
    · intro name hname
      obtain ⟨id, schema, hlookup, hdeclared⟩ := hname
      apply Set.mem_biUnion (Finmap.mem_keys.mpr (Finmap.mem_of_lookup_eq_some hlookup))
      exact Set.mem_biUnion hlookup hdeclared
  obtain ⟨name, hname⟩ := hfinite.exists_notMem
  exact ⟨name, hname⟩

/-- In the search for a property that no entry declares and no reference resolves, one
reference that goes too deep is enough for the search to do so. -/
theorem propertyTypeIn_tooDeep {resolve : String → Except Failure Declaration} {notFound : GoError}
    {name : String} {parents : List Parent}
    (hnone : ∀ parent ∈ parents, parent.properties.lookup name = none)
    (hresolve : ∀ ref d, resolve ref ≠ .ok d)
    {deep : Parent} (hmem : deep ∈ parents) {deepRef : String} (href : deep.ref = some deepRef)
    (hdeep : resolve deepRef = .error .tooDeep) :
    propertyTypeIn resolve notFound name parents = .error .tooDeep := by
  induction parents with
  | nil => cases hmem
  | cons parent parents ih =>
      simp only [propertyTypeIn, hnone parent List.mem_cons_self]
      rcases List.mem_cons.mp hmem with rfl | hmem
      · simp only [href, hdeep]
      · have hlater := ih (fun other hother => hnone other (List.mem_cons_of_mem _ hother)) hmem
        cases parent.ref with
        | none => exact hlater
        | some ref =>
            dsimp only
            cases hfailure : resolve ref with
            | ok d => exact absurd hfailure (hresolve ref d)
            | error failure =>
                cases failure with
                | tooDeep => rfl
                | error e => exact hlater

section Undeclared

variable {ss : SchemaSet} {name : String} (hname : ¬ Declared ss name)
include hname

theorem lookup_of_not_declared {id : String} {schema : SchemaJSON}
    (hschema : ss.lookup id = some schema) :
    schema.properties.lookup name = none ∧
      ∀ parent ∈ schema.allOf, parent.properties.lookup name = none := by
  apply And.intro
  · apply Finmap.lookup_eq_none.mpr
    intro hmem
    exact hname ⟨id, schema, hschema, Or.inl hmem⟩
  · intro parent hparent
    apply Finmap.lookup_eq_none.mpr
    intro hmem
    exact hname ⟨id, schema, hschema, Or.inr ⟨parent, hparent, hmem⟩⟩

theorem propertyType_ne_ok (depth : Nat) (id : String) (d : Declaration) :
    propertyType ss depth id name ≠ .ok d := by
  induction depth generalizing id d with
  | zero =>
      intro hfound
      cases hfound
  | succ depth ih =>
      simp only [propertyType]
      cases hschema : ss.lookup id with
      | none =>
          intro hfound
          cases hfound
      | some schema =>
          obtain ⟨hown, hparents⟩ := lookup_of_not_declared hname hschema
          simp only [hown]
          intro hfound
          have hsearched := searched_propertyTypeIn (fun ref => propertyType ss depth ref name)
            (.errorf "failed to find property %q in %q" [.text name, .text id]) name
            schema.allOf.reverse
          rw [hfound] at hsearched
          generalize hresult : (Except.ok d : Except Failure Declaration) = result at hsearched
          cases hsearched with
          | notFound => cases hresult
          | declared hmem hown =>
              rw [hparents _ (List.mem_reverse.mp hmem)] at hown
              cases hown
          | resolved hmem href => exact ih _ d hresult.symm

/-- The search for such a property does not end on a cycle of references. -/
theorem propertyType_of_cycle {id : String} (hcycle : TransGen (Refers ss) id id) (depth : Nat) :
    propertyType ss depth id name = .error .tooDeep := by
  induction depth generalizing id with
  | zero => rfl
  | succ depth ih =>
      obtain ⟨ref, ⟨schema, hschema, href⟩, hcycle'⟩ := exists_successor_of_cycle hcycle
      obtain ⟨parent, hmem, hparent⟩ := mem_references.mp href
      obtain ⟨hown, hparents⟩ := lookup_of_not_declared hname hschema
      simp only [propertyType, hschema, hown]
      apply propertyTypeIn_tooDeep _ (propertyType_ne_ok hname depth)
        (List.mem_reverse.mpr hmem) hparent (ih hcycle')
      intro other hother
      exact hparents other (List.mem_reverse.mp hother)

end Undeclared

/-! ## No cycles -/

/-- The computation ends: some bound on the depth is not reached. -/
def Terminates {α : Type} (f : Nat → Except Failure α) : Prop := ∃ depth, f depth ≠ .error .tooDeep

/-- All resolvers of a set end, and so does the registration of its schemas: whatever the
store does, no run of it goes on for ever. -/
structure Terminating (ss : SchemaSet) : Prop where
  propertyType : ∀ id name, Terminates fun depth => propertyType ss depth id name
  simpleProperties : ∀ id, Terminates fun depth => simpleProperties ss depth id
  typeName : ∀ id, Terminates fun depth => typeName ss depth id
  registerSchemas : ∀ order, ∃ depth, ∀ (E : Effect api Store) s result t,
    (registerSchemas (.ok ss) depth order).run.Runs E s result t → result ≠ .error .tooDeep

/-- No resolver of a schema reaches the bound. -/
structure Resolves (ss : SchemaSet) (depth : Nat) (id : String) : Prop where
  propertyType : ∀ name, propertyType ss depth id name ≠ .error .tooDeep
  simpleProperties : simpleProperties ss depth id ≠ .error .tooDeep

theorem resolves_succ {ss : SchemaSet} {depth : Nat} {id : String}
    (hrefs : ∀ ref, Refers ss id ref → Resolves ss depth ref) : Resolves ss (depth + 1) id := by
  cases hschema : ss.lookup id with
  | none =>
      constructor
      · intro name hdeep
        simp [KfMetadata.Schema.propertyType, hschema] at hdeep
      · intro hdeep
        simp [KfMetadata.Schema.simpleProperties, hschema] at hdeep
  | some schema =>
      have hparents : ∀ parent ∈ schema.allOf, ∀ ref, parent.ref = some ref →
          Resolves ss depth ref := by
        intro parent hmem ref href
        exact hrefs ref ⟨schema, hschema, mem_references.mpr ⟨parent, hmem, href⟩⟩
      constructor
      · intro name
        simp only [KfMetadata.Schema.propertyType, hschema]
        cases schema.properties.lookup name with
        | some d =>
            intro hdeep
            cases hdeep
        | none =>
            dsimp only
            generalize hresult : propertyTypeIn _ _ name _ = result
            cases hresult ▸ searched_propertyTypeIn _ _ name _ with
            | notFound =>
                intro hdeep
                cases hdeep
            | declared hmem hown =>
                intro hdeep
                cases hdeep
            | resolved hmem href =>
                exact (hparents _ (List.mem_reverse.mp hmem) _ href).propertyType name
      · simp only [KfMetadata.Schema.simpleProperties, hschema]
        intro hdeep
        cases hresult : simplePropertiesIn (KfMetadata.Schema.simpleProperties ss depth) id
            schema.allOf ∅ with
        | ok result =>
            rw [hresult] at hdeep
            cases hdeep
        | error failure =>
            rw [hresult] at hdeep
            cases hdeep
            obtain ⟨parent, hmem, ref, href, cause, hcause, hsame⟩ :=
              simplePropertiesIn_error hresult
            obtain rfl := hsame.mpr rfl
            exact (hparents parent hmem ref href).simpleProperties hcause

/-- Larger bounds are not reached either. -/
theorem Resolves.mono {ss : SchemaSet} {depth depth' : Nat} {id : String}
    (hresolves : Resolves ss depth id) (hle : depth ≤ depth') : Resolves ss depth' id where
  propertyType name := by
    rcases propertyType_refines ss hle id name with hdeep | hsame
    · exact absurd hdeep (hresolves.propertyType name)
    · rw [hsame]
      exact hresolves.propertyType name
  simpleProperties := by
    rcases simpleProperties_refines ss hle id with hdeep | hsame
    · exact absurd hdeep hresolves.simpleProperties
    · rw [hsame]
      exact hresolves.simpleProperties

/-- Without cycles, some bound is large enough for all schemas. -/
theorem NoCycle.exists_resolves {ss : SchemaSet} (hacyclic : NoCycle ss) :
    ∃ depth, ∀ id, Resolves ss depth id := by
  have hfinite : {ref | ∃ id, Refers ss id ref}.Finite := by
    apply Set.Finite.subset (s := ⋃ id ∈ (↑ss.keys : Set String),
      {ref | ∃ schema ∈ ss.lookup id, ref ∈ schema.references})
    · apply (Finset.finite_toSet _).biUnion
      intro id _
      cases ss.lookup id with
      | none => simp
      | some schema => simp
    · intro ref href
      obtain ⟨id, schema, hschema, hmem⟩ := href
      apply Set.mem_biUnion (Finmap.mem_keys.mpr (Finmap.mem_of_lookup_eq_some hschema))
      exact ⟨schema, hschema, hmem⟩
  refine ⟨hfinite.toFinset.card + 1, fun id => ?_⟩
  apply hacyclic.bounded (P := Resolves ss) (fun _ _ => resolves_succ) (V := hfinite.toFinset) _
    (Nat.lt_succ_self _)
  intro ref hpath
  obtain ⟨id', -, hlast⟩ := TransGen.tail'_iff.mp hpath
  exact hfinite.mem_toFinset.mpr ⟨id', hlast⟩

/-! ## What uses the resolvers -/

theorem bind_ne_tooDeep {α β : Type} {x : Except Failure α} {f : α → Except Failure β}
    (hfirst : x ≠ .error .tooDeep) (hrest : ∀ a, f a ≠ .error .tooDeep) :
    x >>= f ≠ .error .tooDeep := by
  cases x with
  | ok a => exact hrest a
  | error failure =>
      intro hdeep
      cases hdeep
      exact hfirst rfl

section Bounded

variable {ss : SchemaSet} {depth : Nat} {id : String} (hresolves : Resolves ss depth id)
include hresolves

theorem constantStringType_ne_tooDeep (name : String) :
    constantStringType ss depth id name ≠ .error .tooDeep := by
  apply bind_ne_tooDeep (hresolves.propertyType name)
  intro p hdeep
  split at hdeep
  · cases hdeep
  · cases hdeep

theorem typeName_ne_tooDeep : typeName ss depth id ≠ .error .tooDeep := by
  apply bind_ne_tooDeep (constantStringType_ne_tooDeep hresolves _)
  intro space
  apply bind_ne_tooDeep (constantStringType_ne_tooDeep hresolves _)
  intro kind
  apply bind_ne_tooDeep (constantStringType_ne_tooDeep hresolves _)
  intro version hdeep
  cases hdeep

theorem schemaProperties_ne_tooDeep (space typename : String) :
    schemaProperties ss depth id space typename ≠ .error .tooDeep := by
  unfold schemaProperties
  intro hdeep
  split at hdeep
  · exact hresolves.simpleProperties ‹_›
  · cases hdeep
  · split at hdeep
    · cases hdeep
    · cases hdeep

theorem schemaType_ne_tooDeep : schemaType ss depth id ≠ .error .tooDeep := by
  have htype : ∀ (r : Resource) (space typename : String),
      (schemaProperties ss depth id space typename).map (fun type => some (r, type)) ≠
        .error .tooDeep := by
    intro r space typename hdeep
    cases hresult : schemaProperties ss depth id space typename with
    | ok type =>
        rw [hresult] at hdeep
        cases hdeep
    | error failure =>
        rw [hresult] at hdeep
        cases hdeep
        exact schemaProperties_ne_tooDeep hresolves space typename hresult
  unfold schemaType
  intro hdeep
  split at hdeep
  · exact typeName_ne_tooDeep hresolves ‹_›
  · cases hdeep
  · split at hdeep
    · exact constantStringType_ne_tooDeep hresolves _ ‹_›
    · cases hdeep
    · split at hdeep
      · exact htype _ _ _ hdeep
      · split at hdeep
        · exact htype _ _ _ hdeep
        · cases hdeep

end Bounded

/-- The loop stops with an error or goes through all schemas. -/
theorem registerIn_ne_tooDeep {ss : SchemaSet} {depth : Nat}
    (hresolves : ∀ id, Resolves ss depth id) {E : Effect api Store} {order : List String}
    {s t : Store} {result : Except Failure (List String)}
    (hrun : (registerIn ss depth order).run.Runs E s result t) : result ≠ .error .tooDeep := by
  intro hdeep
  subst hdeep
  induction order generalizing s t with
  | nil => cases (runs_run_pure.mp hrun).1
  | cons id ids ih =>
      unfold registerIn at hrun
      split at hrun
      · rename_i failure hfailure
        cases (runs_run_throw.mp hrun).1
        exact schemaType_ne_tooDeep (hresolves id) hfailure
      · exact ih hrun
      · rcases runs_run_bind.mp hrun with ⟨failure, hsame, hregister⟩ | ⟨_, u, -, hrest⟩
        · cases hsame
          obtain ⟨reply, -, hreply⟩ := runs_registerType.mp hregister
          cases reply with
          | ok value => cases hreply
          | error e => cases hreply
        · rcases runs_run_bind.mp hrest with ⟨failure, hsame, hloop⟩ | ⟨types, v, -, hresult⟩
          · cases hsame
            exact ih hloop
          · cases (runs_run_pure.mp hresult).1

/-- The resolvers of a set all end exactly if its references have no cycle. -/
theorem terminating_iff_noCycle (ss : SchemaSet) : Terminating ss ↔ NoCycle ss := by
  apply Iff.intro
  · intro hends id hcycle
    obtain ⟨name, hname⟩ := exists_not_declared ss
    obtain ⟨depth, hdepth⟩ := hends.propertyType id name
    exact hdepth (propertyType_of_cycle hname hcycle depth)
  · intro hacyclic
    obtain ⟨depth, hresolves⟩ := hacyclic.exists_resolves
    exact {
      propertyType := fun id name => ⟨depth, (hresolves id).propertyType name⟩
      simpleProperties := fun id => ⟨depth, (hresolves id).simpleProperties⟩
      typeName := fun id => ⟨depth, typeName_ne_tooDeep (hresolves id)⟩
      registerSchemas := fun order => ⟨depth, fun E s result t hrun =>
        registerIn_ne_tooDeep hresolves hrun⟩ }

/-! ## Sets that are built -/

variable {env : Environment}

variable (env) in
/-- A file has the schema `id`, which refers to `ref`. -/
def FileRefers (files : List String) (id ref : String) : Prop :=
  ∃ file ∈ files, ∃ schema, fileSchema env file = .ok schema ∧ schema.id = id ∧
    ref ∈ schema.references

/-- No reference of what the text adds leads back to it. -/
def AddsNoCycle (set : OpenSet env) (b : Bytes) : Prop :=
  ∀ schema, Adds set b schema → ∀ ref ∈ schema.references,
    ¬ ReflTransGen (Refers set.schemas) ref schema.id

theorem refers_newSchemaSetFromFiles {files : List String} {set : OpenSet env}
    (hset : newSchemaSetFromFiles env files = .ok set) :
    Refers set.schemas = FileRefers env files := by
  funext id ref
  apply propext
  apply Iff.intro
  · intro hrefers
    obtain ⟨schema, hschema, href⟩ := hrefers
    obtain ⟨file, hfile, hread, hid⟩ := (lookup_newSchemaSetFromFiles hset _ _).mp hschema
    exact ⟨file, hfile, schema, hread, hid, href⟩
  · intro hrefers
    obtain ⟨file, hfile, schema, hread, hid, href⟩ := hrefers
    exact ⟨schema, (lookup_newSchemaSetFromFiles hset _ _).mpr ⟨file, hfile, hread, hid⟩, href⟩

theorem refers_insert {ss : SchemaSet} {schema : SchemaJSON} (hnew : schema.id ∉ ss) :
    Refers (ss.insert schema.id schema) =
      fun id ref => Refers ss id ref ∨ id = schema.id ∧ ref ∈ schema.references := by
  funext id ref
  apply propext
  apply Iff.intro
  · intro hrefers
    obtain ⟨other, hother, href⟩ := hrefers
    rcases (lookup_insert_new hnew _ _).mp hother with hold | ⟨rfl, hid⟩
    · exact Or.inl ⟨other, hold, href⟩
    · exact Or.inr ⟨hid.symm, href⟩
  · intro hrefers
    rcases hrefers with ⟨other, hother, href⟩ | ⟨hid, href⟩
    · exact ⟨other, (lookup_insert_new hnew _ _).mpr (Or.inl hother), href⟩
    · exact ⟨schema, (lookup_insert_new hnew _ _).mpr (Or.inr ⟨rfl, hid.symm⟩), href⟩

theorem noCycle_addSchema {set : OpenSet env} (hacyclic : NoCycle set.schemas) (b : Bytes) :
    NoCycle (addSchema set b).2.schemas ↔ AddsNoCycle set b := by
  rcases addSchema_cases set b with ⟨schema, hadds, -, hschemas⟩ | ⟨hnone, hschemas, -⟩
  · rw [NoCycle, hschemas, refers_insert hadds.new, acyclic_insert_iff]
    apply Iff.intro
    · intro ⟨_, hnew⟩ schema' hadds' ref href
      obtain rfl : schema = schema' := Except.ok.inj (hadds.read.symm.trans hadds'.read)
      exact hnew ref href
    · intro hnew
      exact ⟨hacyclic, hnew schema hadds⟩
  · rw [hschemas]
    exact ⟨fun _ schema hadds => absurd hadds (hnone schema), fun _ => hacyclic⟩

/-- **Termination.** The resolvers of the sets obtained from files and additions all end
exactly if no references of the files form a cycle, and no addition closes one. -/
theorem terminating_iff {files : List String} {added : List Bytes} {set : OpenSet env}
    (hset : Obtained files added set) :
    AllObtained files added (fun set : OpenSet env => Terminating set.schemas) ↔
      Acyclic (FileRefers env files) ∧
        AllAdditions files added (AddsNoCycle : OpenSet env → Bytes → Prop) := by
  apply allObtained_iff _ _ hset
  · intro first hfirst
    rw [terminating_iff_noCycle, NoCycle, refers_newSchemaSetFromFiles hfirst]
  · intro before b hbefore
    rw [terminating_iff_noCycle]
    exact noCycle_addSchema ((terminating_iff_noCycle _).mp hbefore) b

/-- The resolvers end after a schema has been added, and one that refers to it. -/
theorem terminating_baseAndExt :
    Adds (addSchema readingBoth baseText).2 extText extDocument.schema ∧
      AllObtained [] [baseText, extText]
        (fun set : OpenSet (offline baseOrExt) => Terminating set.schemas) := by
  refine ⟨adds_ext, (terminating_iff obtained_both).mpr ?_⟩
  apply And.intro
  · intro id hcycle
    obtain ⟨ref, ⟨file, hfile, -⟩, -⟩ := TransGen.head'_iff.mp hcycle
    cases hfile
  · apply allAdditions_both
    · intro schema hadds ref href
      obtain ⟨d, hdecode, rfl, -⟩ := newSchemaJSON_offline.mp hadds.read
      obtain rfl : baseDocument = d := Option.some.inj ((if_pos rfl).symm.trans hdecode)
      cases href
    · intro schema hadds ref href hpath
      obtain ⟨d, hdecode, rfl, -⟩ := newSchemaJSON_offline.mp hadds.read
      obtain rfl := Option.some.inj (baseOrExt_ext.symm.trans hdecode)
      obtain rfl : ref = baseDocument.schema.id := List.mem_singleton.mp href
      rw [addSchema_base] at hpath
      -- `base.json` refers to nothing, and so not back.
      rcases hpath.cases_head with hsame | ⟨next, ⟨base, hbase, hnext⟩, -⟩
      · exact absurd hsame (by decide)
      · rw [Finmap.lookup_singleton_eq] at hbase
        obtain rfl := Option.some.inj hbase
        cases hnext

/-- A document that refers to itself. -/
def selfDocument : Document where
  schema :=
    { id := "http://github.com/kubeflow/metadata/schemaparser/testdata/ext.json"
      properties := ∅
      allOf := [⟨some "http://github.com/kubeflow/metadata/schemaparser/testdata/ext.json", ∅⟩] }
  definitions := []

def selfText : Bytes :=
  ("\x7b\"$id\": \"http://github.com/kubeflow/metadata/schemaparser/testdata/ext.json\", " ++
    "\"allOf\": [\x7b\"$ref\": " ++
    "\"http://github.com/kubeflow/metadata/schemaparser/testdata/ext.json\"\x7d]\x7d").toUTF8.toList

/-- A schema that refers to itself is added, and then the resolvers do not end. -/
theorem self_reference_not_terminating :
    ¬ ∀ (env : Environment), CompilerSpec env → ∀ (files : List String) (added : List Bytes)
      (set : OpenSet env), Obtained files added set → Terminating set.schemas := by
  intro hclaim
  obtain ⟨-, hschemas⟩ := addSchema_reading selfText selfDocument (by decide) (by decide)
  have hends := hclaim (reading selfText selfDocument) (offlineSpec _) [] [selfText] _
    (.add (obtained_noSchemas _ _) selfText)
  rw [hschemas, terminating_iff_noCycle] at hends
  apply hends selfDocument.schema.id
  exact TransGen.single ⟨selfDocument.schema, Finmap.lookup_singleton_eq, by decide⟩

end KfMetadata.Schema
