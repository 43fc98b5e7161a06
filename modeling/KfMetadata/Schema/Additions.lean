/-
# Adding schemas

An addition never touches the schemas that a set has: their ids resolve as
before, as far as the set is closed under references. Whether it stays closed is
another question. The compiler resolves references by its own rules, relative to
the document and into it, while the resolvers of the set look them up as text,
so a set is closed exactly as long as the references of what is put into it are,
as text, keys of the set.
-/

import KfMetadata.Schema.Building

namespace KfMetadata.Schema

open Mlmd Service

variable {env : Environment}

/-! ## Resolving in a larger set -/

theorem propertyTypeIn_congr {resolve resolve' : String → Except Failure Declaration}
    {notFound : GoError} {name : String} {parents : List Parent}
    (hresolve : ∀ parent ∈ parents, ∀ ref, parent.ref = some ref → resolve ref = resolve' ref) :
    propertyTypeIn resolve notFound name parents =
      propertyTypeIn resolve' notFound name parents := by
  induction parents with
  | nil => rfl
  | cons parent parents ih =>
      have hlater := ih fun other hmem => hresolve other (List.mem_cons_of_mem _ hmem)
      have hown := hresolve parent List.mem_cons_self
      simp only [propertyTypeIn]
      cases parent.properties.lookup name with
      | some declaration => rfl
      | none =>
          cases href : parent.ref with
          | none => exact hlater
          | some ref =>
              dsimp only
              rw [hown ref href, hlater]

theorem simplePropertiesIn_congr {resolve resolve' : String → Except Failure (StringMap String)}
    {id : String} {parents : List Parent}
    (hresolve : ∀ parent ∈ parents, ∀ ref, parent.ref = some ref → resolve ref = resolve' ref)
    (result : StringMap String) :
    simplePropertiesIn resolve id parents result =
      simplePropertiesIn resolve' id parents result := by
  induction parents generalizing result with
  | nil => rfl
  | cons parent parents ih =>
      have hlater := ih fun other hmem => hresolve other (List.mem_cons_of_mem _ hmem)
      have hown := hresolve parent List.mem_cons_self
      simp only [simplePropertiesIn]
      cases href : parent.ref with
      | none => exact hlater _
      | some ref =>
          simp only [hown ref href, hlater]

/-- The schemas of `old` are also those of `new`. -/
def Contains (new old : SchemaSet) : Prop := ∀ id ∈ old, new.lookup id = old.lookup id

theorem contains_insert {ss : SchemaSet} {schema : SchemaJSON} (hnew : schema.id ∉ ss) :
    Contains (ss.insert schema.id schema) ss := by
  intro id hid
  apply Finmap.lookup_insert_of_ne
  rintro rfl
  exact hnew hid

section Frame

variable {new old : SchemaSet} {depth : Nat} {id : String}

theorem propertyType_frame (hclosed : Closed old) (hcontains : Contains new old) (hid : id ∈ old)
    (name : String) : propertyType new depth id name = propertyType old depth id name := by
  induction depth generalizing id with
  | zero => rfl
  | succ depth ih =>
      simp only [propertyType, hcontains id hid]
      cases hschema : old.lookup id with
      | none => rfl
      | some schema =>
          dsimp only
          cases schema.properties.lookup name with
          | some declaration => rfl
          | none =>
              apply propertyTypeIn_congr
              intro parent hmem ref href
              apply ih
              apply hclosed id ref
              exact ⟨schema, hschema,
                mem_references.mpr ⟨parent, List.mem_reverse.mp hmem, href⟩⟩

theorem constantStringType_frame (hclosed : Closed old) (hcontains : Contains new old)
    (hid : id ∈ old) (name : String) :
    constantStringType new depth id name = constantStringType old depth id name := by
  simp only [constantStringType, propertyType_frame hclosed hcontains hid]

theorem typeName_frame (hclosed : Closed old) (hcontains : Contains new old) (hid : id ∈ old) :
    typeName new depth id = typeName old depth id := by
  simp only [typeName, constantStringType_frame hclosed hcontains hid]

theorem simpleProperties_frame (hclosed : Closed old) (hcontains : Contains new old)
    (hid : id ∈ old) : simpleProperties new depth id = simpleProperties old depth id := by
  induction depth generalizing id with
  | zero => rfl
  | succ depth ih =>
      simp only [simpleProperties, hcontains id hid]
      cases hschema : old.lookup id with
      | none => rfl
      | some schema =>
          dsimp only
          rw [simplePropertiesIn_congr]
          intro parent hmem ref href
          apply ih
          apply hclosed id ref
          exact ⟨schema, hschema, mem_references.mpr ⟨parent, hmem, href⟩⟩

end Frame

/-! ## Additions leave the other schemas alone -/

/-- Every schema is stored under its `$id`. -/
def KeyedById (ss : SchemaSet) : Prop := ∀ key schema, ss.lookup key = some schema → schema.id = key

theorem KeyedById.insert {ss : SchemaSet} (hkeyed : KeyedById ss) (schema : SchemaJSON) :
    KeyedById (ss.insert schema.id schema) := by
  intro key other hother
  by_cases hkey : key = schema.id
  · subst hkey
    rw [Finmap.lookup_insert] at hother
    cases hother
    rfl
  · rw [Finmap.lookup_insert_of_ne _ hkey] at hother
    exact hkeyed key other hother

/-- The resolvers find in `new` what they find in `old`. -/
structure ResolvesAs (new old : SchemaSet) (id : String) : Prop where
  simpleProperties : ∀ depth, simpleProperties new depth id = simpleProperties old depth id
  propertyType : ∀ depth name, propertyType new depth id name = propertyType old depth id name
  typeName : ∀ depth, typeName new depth id = typeName old depth id

/-- The set after an addition has the schemas of the set before it, and at most one more,
under an `$id` that is not empty and was not there. -/
theorem schemas_addSchema (set : OpenSet env) (b : Bytes) :
    (addSchema set b).2.schemas = set.schemas ∨
      ∃ schema, newSchemaJSON env b = .ok schema ∧ schema.id ∉ set.schemas ∧
        (addSchema set b).2.schemas = set.schemas.insert schema.id schema := by
  rcases addSchema_cases set b with ⟨schema, hadds, -, hschemas⟩ | ⟨-, hschemas, -⟩
  · exact Or.inr ⟨schema, hadds.read, hadds.new, hschemas⟩
  · exact Or.inl hschemas

/-- **Additions are local.** Adding a schema to a closed set fails and leaves the schemas
as they are, or returns the `$id` of the schema and puts at most that schema into the set,
under a new key. Schemas are still stored under their `$id`, no key that is added is empty,
and the ids that were there resolve as before. -/
theorem addSchema_local {set : OpenSet env} (hkeyed : KeyedById set.schemas)
    (hclosed : Closed set.schemas) (b : Bytes) :
    ((∃ e, (addSchema set b).1 = .error e) ∧ (addSchema set b).2.schemas = set.schemas ∨
      ∃ schema, newSchemaJSON env b = .ok schema ∧ (addSchema set b).1 = .ok schema.id ∧
        ((addSchema set b).2.schemas = set.schemas ∨
          schema.id ∉ set.schemas ∧
            (addSchema set b).2.schemas = set.schemas.insert schema.id schema)) ∧
    KeyedById (addSchema set b).2.schemas ∧
    (∀ key ∈ (addSchema set b).2.schemas, key ∉ set.schemas → key ≠ "") ∧
    ∀ id ∈ set.schemas, ResolvesAs (addSchema set b).2.schemas set.schemas id := by
  refine ⟨?_, ?_⟩
  · rcases addSchema_cases set b with ⟨schema, hadds, hresult, hschemas⟩ |
      ⟨-, hschemas, herror | ⟨schema, hread, -, hresult⟩⟩
    · exact Or.inr ⟨schema, hadds.read, hresult, Or.inr ⟨hadds.new, hschemas⟩⟩
    · exact Or.inl ⟨herror, hschemas⟩
    · exact Or.inr ⟨schema, hread, hresult, Or.inl hschemas⟩
  · rcases schemas_addSchema set b with hschemas | ⟨schema, hread, hnew, hschemas⟩
    · rw [hschemas]
      refine ⟨hkeyed, fun key hmem hnot => absurd hmem hnot, fun id _ => ⟨?_, ?_, ?_⟩⟩
      · exact fun _ => rfl
      · exact fun _ _ => rfl
      · exact fun _ => rfl
    · rw [hschemas]
      have hcontains := contains_insert hnew
      refine ⟨hkeyed.insert schema, ?_, fun id hid => ⟨?_, ?_, ?_⟩⟩
      · intro key hmem hnot
        rcases Finmap.mem_insert.mp hmem with rfl | hold
        · exact newSchemaJSON_ok hread
        · exact absurd hold hnot
      · exact fun _ => simpleProperties_frame hclosed hcontains hid
      · exact fun _ name => propertyType_frame hclosed hcontains hid name
      · exact fun _ => typeName_frame hclosed hcontains hid

theorem keyedById_baseAndExt : KeyedById baseAndExt := by
  intro key schema hschema
  by_cases hext : key = "ext.json"
  · subst hext
    rw [baseAndExt, Finmap.lookup_insert] at hschema
    cases hschema
    rfl
  · rw [baseAndExt, Finmap.lookup_insert_of_ne _ hext] at hschema
    have hbase : key = "base.json" :=
      (Finmap.mem_singleton _ _ _).mp (Finmap.mem_of_lookup_eq_some hschema)
    subst hbase
    rw [Finmap.lookup_singleton_eq] at hschema
    cases hschema
    rfl

/-- A set of two schemas in an environment that can read a third. -/
def openBaseAndExt : OpenSet (reading baseText baseDocument) := ⟨([] : List String), baseAndExt⟩

/-- The two schemas resolve as before when the third is added. -/
theorem addSchema_local_baseAndExt :
    ResolvesAs (addSchema openBaseAndExt baseText).2.schemas baseAndExt "base.json" ∧
      ResolvesAs (addSchema openBaseAndExt baseText).2.schemas baseAndExt "ext.json" := by
  have hkeyed : KeyedById openBaseAndExt.schemas := keyedById_baseAndExt
  have hresolves := (addSchema_local hkeyed closed_baseAndExt baseText).2.2.2
  have hext : "ext.json" ∈ baseAndExt := (Finmap.mem_insert).mpr (Or.inl rfl)
  have hbase : "base.json" ∈ baseAndExt :=
    (Finmap.mem_insert).mpr (Or.inr ((Finmap.mem_singleton _ _ _).mpr rfl))
  exact ⟨hresolves _ hbase, hresolves _ hext⟩

/-! ## Inclusive sets -/

/-- Every reference is a key of the set, so that none is left unresolved. -/
structure Inclusive (ss : SchemaSet) : Prop where
  closed : Closed ss
  resolved : ∀ id ∈ ss, ∀ depth e, simpleProperties ss depth id ≠ .error (.error e)

/-- In a closed set no reference is left unresolved. -/
theorem inclusive_iff_closed (ss : SchemaSet) : Inclusive ss ↔ Closed ss := by
  apply Iff.intro
  · exact Inclusive.closed
  intro hclosed
  refine ⟨hclosed, fun id hid depth => ?_⟩
  induction depth generalizing id with
  | zero =>
      intro e hfails
      cases hfails
  | succ depth ih =>
      intro e
      obtain ⟨schema, hschema⟩ := Finmap.mem_iff.mp hid
      simp only [simpleProperties, hschema]
      intro hfails
      cases hresult : simplePropertiesIn (simpleProperties ss depth) id schema.allOf ∅ with
      | ok result =>
          rw [hresult] at hfails
          cases hfails
      | error failure =>
          rw [hresult] at hfails
          cases hfails
          obtain ⟨parent, hmem, ref, href, cause, hcause, hsame⟩ := simplePropertiesIn_error hresult
          have href' : Refers ss id ref :=
            ⟨schema, hschema, mem_references.mpr ⟨parent, hmem, href⟩⟩
          cases cause with
          | tooDeep => cases hsame.mp rfl
          | error e' => exact ih ref (hclosed id ref href') e' hcause

variable (env) in
/-- The references of the files are, as text, ids of the files. -/
def FilesInclusive (files : List String) : Prop :=
  ∀ file ∈ files, ∀ schema, fileSchema env file = .ok schema → ∀ ref ∈ schema.references,
    ∃ file' ∈ files, ∃ schema', fileSchema env file' = .ok schema' ∧ schema'.id = ref

/-- What the text adds refers only to itself and to schemas of the set. -/
def AddsInclusive (set : OpenSet env) (b : Bytes) : Prop :=
  ∀ schema, Adds set b schema → ∀ ref ∈ schema.references, ref = schema.id ∨ ref ∈ set.schemas

theorem closed_newSchemaSetFromFiles {files : List String} {set : OpenSet env}
    (hset : newSchemaSetFromFiles env files = .ok set) :
    Closed set.schemas ↔ FilesInclusive env files := by
  have hlookup := lookup_newSchemaSetFromFiles hset
  apply Iff.intro
  · intro hclosed file hfile schema hschema ref href
    obtain ⟨schema', hschema'⟩ := Finmap.mem_iff.mp
      (hclosed schema.id ref ⟨schema, (hlookup _ _).mpr ⟨file, hfile, hschema, rfl⟩, href⟩)
    obtain ⟨file', hfile', hread, hid⟩ := (hlookup _ _).mp hschema'
    exact ⟨file', hfile', schema', hread, hid⟩
  · intro hfiles id ref hrefers
    obtain ⟨schema, hschema, href⟩ := hrefers
    obtain ⟨file, hfile, hread, -⟩ := (hlookup _ _).mp hschema
    obtain ⟨file', hfile', schema', hread', hid⟩ := hfiles file hfile schema hread ref href
    exact Finmap.mem_of_lookup_eq_some ((hlookup _ _).mpr ⟨file', hfile', hread', hid⟩)

theorem closed_addSchema {set : OpenSet env} (hclosed : Closed set.schemas) (b : Bytes) :
    Closed (addSchema set b).2.schemas ↔ AddsInclusive set b := by
  rcases addSchema_cases set b with ⟨schema, hadds, -, hschemas⟩ | ⟨hnone, hschemas, -⟩
  · rw [hschemas]
    apply Iff.intro
    · intro hafter schema' hadds' ref href
      obtain rfl : schema = schema' := Except.ok.inj (hadds.read.symm.trans hadds'.read)
      exact Finmap.mem_insert.mp (hafter schema.id ref ⟨schema, Finmap.lookup_insert _, href⟩)
    · intro hinclusive id ref hrefers
      obtain ⟨other, hother, href⟩ := hrefers
      rcases (lookup_insert_new hadds.new _ _).mp hother with hold | ⟨rfl, -⟩
      · exact Finmap.mem_insert.mpr (Or.inr (hclosed id ref ⟨other, hold, href⟩))
      · exact Finmap.mem_insert.mpr (hinclusive schema hadds ref href)
  · rw [hschemas]
    exact ⟨fun _ schema hadds => absurd hadds (hnone schema), fun _ => hclosed⟩

/-- **Inclusive sets.** The sets obtained from files and additions are inclusive exactly if
the references of the files are ids of files, and every schema that is added refers only to
itself and to schemas that are there. -/
theorem inclusive_iff {files : List String} {added : List Bytes} {set : OpenSet env}
    (hset : Obtained files added set) :
    AllObtained files added (fun set : OpenSet env => Inclusive set.schemas) ↔
      FilesInclusive env files ∧
        AllAdditions files added (AddsInclusive : OpenSet env → Bytes → Prop) := by
  apply allObtained_iff _ _ hset
  · intro first hfirst
    rw [inclusive_iff_closed]
    exact closed_newSchemaSetFromFiles hfirst
  · intro before b hbefore
    rw [inclusive_iff_closed]
    exact closed_addSchema hbefore.closed b

/-- A schema is added, and then one that refers to it. -/
theorem inclusive_baseAndExt :
    Adds (addSchema readingBoth baseText).2 extText extDocument.schema ∧
      AllObtained [] [baseText, extText]
        (fun set : OpenSet (offline baseOrExt) => Inclusive set.schemas) := by
  refine ⟨adds_ext, (inclusive_iff obtained_both).mpr ?_⟩
  apply And.intro
  · intro file hfile
    cases hfile
  · apply allAdditions_both
    · intro schema hadds ref href
      obtain ⟨d, hdecode, rfl, -⟩ := newSchemaJSON_offline.mp hadds.read
      obtain rfl : baseDocument = d := Option.some.inj ((if_pos rfl).symm.trans hdecode)
      cases href
    · intro schema hadds ref href
      obtain ⟨d, hdecode, rfl, -⟩ := newSchemaJSON_offline.mp hadds.read
      obtain rfl := Option.some.inj (baseOrExt_ext.symm.trans hdecode)
      obtain rfl : ref = baseDocument.schema.id := List.mem_singleton.mp href
      rw [addSchema_base]
      exact Or.inr ((Finmap.mem_singleton _ _ _).mpr rfl)

/-- A document that refers to one of its own definitions. -/
def pointerDocument : Document where
  schema :=
    { id := "http://github.com/kubeflow/metadata/schemaparser/testdata/ext.json"
      properties := ∅
      allOf := [⟨some "#/definitions/base", ∅⟩] }
  definitions := ["base"]

def pointerText : Bytes :=
  ("\x7b\"$id\": \"http://github.com/kubeflow/metadata/schemaparser/testdata/ext.json\", " ++
    "\"definitions\": \x7b\"base\": \x7b\x7d\x7d, " ++
    "\"allOf\": [\x7b\"$ref\": \"#/definitions/base\"\x7d]\x7d").toUTF8.toList

/-- A schema that refers to its own definition is added, and its properties are then not
found: the reference is no key of the set. -/
theorem pointer_not_inclusive :
    ¬ ∀ (env : Environment), CompilerSpec env → ∀ (files : List String) (added : List Bytes)
      (set : OpenSet env), Obtained files added set → Inclusive set.schemas := by
  intro hclaim
  obtain ⟨-, hschemas⟩ := addSchema_reading pointerText pointerDocument (by decide) (by decide)
  have hinclusive := hclaim (reading pointerText pointerDocument) (offlineSpec _) [] [pointerText] _
    (.add (obtained_noSchemas _ _) pointerText)
  rw [hschemas] at hinclusive
  apply hinclusive.resolved pointerDocument.schema.id
    ((Finmap.mem_singleton _ _ _).mpr rfl) 2
  simp only [simpleProperties, Finmap.lookup_singleton_eq]
  rfl

end KfMetadata.Schema
