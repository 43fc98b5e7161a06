/-
# Building schema sets

A set is built from schema files, and schemas can be added to it one by one
later. What reads the files, decodes JSON and compiles a schema is not part of
the repository, so the set is built relative to an environment that provides it.
The compiler keeps a pool of the documents it has seen, which is a state that
every call passes on; whether it accepts a document is all that the set takes
from it.
-/

import KfMetadata.Library.Fallible
import KfMetadata.Schema.Inheritance

namespace KfMetadata.Schema

open Mlmd Service

abbrev Bytes : Type := List UInt8

/-- Where the compiler takes a document from. -/
inductive JSONLoader
  | reference (url : String)
  | bytes (b : Bytes)

/-- What building a set calls. -/
structure Environment where
  /-- the absolute path of a file -/
  abs : String → Except String String
  readFile : String → Except String Bytes
  unmarshal : Bytes → Except String SchemaJSON
  /-- the state of the compiler, its pool of documents -/
  Loader : Type
  newSchemaLoader : Loader
  addSchemas : Loader → JSONLoader → Except String Loader
  compile : Loader → JSONLoader → Except String Unit × Loader

/-- A set together with the compiler that it was built with. -/
structure OpenSet (env : Environment) where
  loader : env.Loader
  schemas : SchemaSet

variable (env : Environment)

def absolutePath (file : String) : Except GoError String :=
  (env.abs file).mapError fun e => .wrapf "failed to get absolute file path: %s" [] (.text e)

/-- Put the files into the pool of the compiler. -/
def loadSchemas (files : List String) : Except GoError env.Loader :=
  files.foldlM (fun sl file => do
    let path ← absolutePath env file
    (env.addSchemas sl (.reference ("file://" ++ path))).mapError fun e =>
      .wrapf "failed to add schema in %s:%s" [.text path] (.text e)) env.newSchemaLoader

/-- The schema in a file. -/
def schemaJSON (file : String) : Except GoError SchemaJSON := do
  let b ← (env.readFile file).mapError fun e =>
    .wrapf "failed to read file %s: %s" [.text file] (.text e)
  let schema ← (env.unmarshal b).mapError fun e =>
    .wrapf "failed to unmarshal schema in %s: %s" [.text file] (.text e)
  if schema.id = "" then .error (.errorf "missing $id in file %s" [.text file])
  else .ok schema

/-- The schema in a text. -/
def newSchemaJSON (b : Bytes) : Except GoError SchemaJSON := do
  let schema ← (env.unmarshal b).mapError fun e =>
    .wrapf "failed to unmarshal schema: %s" [] (.text e)
  if schema.id = "" then .error (.text "missing $id")
  else .ok schema

/-- The schema in the file of a relative path. -/
def fileSchema (file : String) : Except GoError SchemaJSON :=
  absolutePath env file >>= schemaJSON env

variable {env}

/-- Add the schema of one file to the set. -/
def addFile (set : OpenSet env) (file : String) : Except GoError (OpenSet env) := do
  let path ← absolutePath env file
  let schema ← schemaJSON env path
  match env.compile set.loader (.reference ("file://" ++ path)) with
  | (.error e, _) => .error (.wrapf "failed to compile schema in %s: %s" [.text path] (.text e))
  | (.ok (), sl) =>
      if schema.id ∈ set.schemas then
        .error (.errorf "duplicated $id %s in %s" [.text schema.id, .text file])
      else .ok ⟨sl, set.schemas.insert schema.id schema⟩

variable (env) in
def newSchemaSetFromFiles (files : List String) : Except GoError (OpenSet env) := do
  let sl ← loadSchemas env files
  files.foldlM addFile ⟨sl, ∅⟩

/-- Add a schema to the set, unless there is one of its `$id`. The compiler sees the
document before the set does. -/
def addSchema (set : OpenSet env) (b : Bytes) : Except GoError String × OpenSet env :=
  match newSchemaJSON env b with
  | .error e => (.error (.wrapf "invaid schema: %s" [] e), set)
  | .ok schema =>
      if schema.id ∈ set.schemas then (.ok schema.id, set)
      else match env.compile set.loader (.bytes b) with
        | (.error e, sl) =>
            (.error (.wrapf "failed to compile schema: %s" [] (.text e)), ⟨sl, set.schemas⟩)
        | (.ok (), sl) => (.ok schema.id, ⟨sl, set.schemas.insert schema.id schema⟩)

/-- The sets that are obtained from the files and any further additions, successful or not. -/
inductive Obtained (files : List String) : List Bytes → OpenSet env → Prop
  | files {set : OpenSet env} (hfiles : newSchemaSetFromFiles env files = .ok set) :
      Obtained files [] set
  | add {added : List Bytes} {set : OpenSet env} (hset : Obtained files added set) (b : Bytes) :
      Obtained files (added ++ [b]) (addSchema set b).2

/-! ## What is known of the compiler -/

/-- A compiler resolves a reference relative to the `$id` of its document. It accepts a
document if each of its references is a pointer to one of its own definitions, or names the
document itself, one of the pool, or one that can be loaded. -/
structure CompilerSpec (env : Environment) where
  /-- all references of a document, wherever they stand -/
  references : Bytes → List String
  /-- the names of the definitions of a document -/
  definitions : Bytes → List String
  /-- the URL that a reference names in a document of the given `$id` -/
  resolve : String → String → String
  pool : env.Loader → String → Prop
  loads : String → Prop
  references_allOf : ∀ b schema, env.unmarshal b = .ok schema →
    ∀ ref ∈ schema.references, ref ∈ references b
  accepts : ∀ sl b schema, env.unmarshal b = .ok schema →
    (∀ ref ∈ references b, (∃ name ∈ definitions b, ref = "#/definitions/" ++ name) ∨
      resolve schema.id ref = schema.id ∨ pool sl (resolve schema.id ref) ∨
      loads (resolve schema.id ref)) →
    (env.compile sl (.bytes b)).1 = .ok ()

/-- A schema and the names of the definitions in its document. -/
structure Document where
  schema : SchemaJSON
  definitions : List String

/-- The reference points to a definition of the document, or names it or one of the pool. -/
def Document.Resolves (d : Document) (pool : List String) (ref : String) : Prop :=
  (∃ name ∈ d.definitions, ref = "#/definitions/" ++ name) ∨ ref = d.schema.id ∨ ref ∈ pool

instance (d : Document) (pool : List String) (ref : String) : Decidable (d.Resolves pool ref) :=
  inferInstanceAs (Decidable (_ ∨ _ ∨ _))

/-- An environment without files and network, for documents that have no references but
those of their `allOf` entries and write URLs in full. -/
def offline (decode : Bytes → Option Document) : Environment where
  abs := .ok
  readFile _ := .error "no such file or directory"
  unmarshal b := match decode b with
    | none => .error "invalid character"
    | some d => .ok d.schema
  Loader := List String
  newSchemaLoader := []
  addSchemas _ _ := .error "no such file or directory"
  compile pool source := match source with
    | .reference _ => (.error "no such file or directory", pool)
    | .bytes b => match decode b with
      | none => (.error "invalid character", pool)
      | some d =>
          if ∀ ref ∈ d.schema.references, d.Resolves pool ref then (.ok (), d.schema.id :: pool)
          else (.error "could not read schema from HTTP", pool)

/-- The compiler of that environment is a compiler. -/
def offlineSpec (decode : Bytes → Option Document) : CompilerSpec (offline decode) where
  references b := ((decode b).map fun d => d.schema.references).getD []
  definitions b := ((decode b).map Document.definitions).getD []
  resolve _ ref := ref
  pool (sl : List String) url := url ∈ sl
  loads _ := False
  references_allOf := by
    intro b schema hread ref href
    cases hdecode : decode b with
    | none => simp [offline, hdecode] at hread
    | some d =>
        obtain rfl : d.schema = schema := by simpa [offline, hdecode] using hread
        simpa using href
  accepts := by
    intro sl b schema hread hrefs
    cases hdecode : decode b with
    | none => simp [offline, hdecode] at hread
    | some d =>
        obtain rfl : d.schema = schema := by simpa [offline, hdecode] using hread
        have hall : ∀ ref ∈ d.schema.references, d.Resolves sl ref := by
          intro ref href
          unfold Document.Resolves
          simpa [hdecode] using hrefs ref (by simpa [hdecode] using href)
        simp only [offline, hdecode, if_pos hall]

/-! ## What the steps do -/

theorem newSchemaJSON_ok {b : Bytes} {schema : SchemaJSON}
    (hschema : newSchemaJSON env b = .ok schema) : schema.id ≠ "" := by
  obtain ⟨schema', -, hid⟩ := Fallible.bind_eq_ok.mp hschema
  split at hid
  · cases hid
  · cases hid
    assumption

theorem addFile_ok {set set' : OpenSet env} {file : String} (hadd : addFile set file = .ok set') :
    ∃ schema, fileSchema env file = .ok schema ∧ schema.id ∉ set.schemas ∧
      set'.schemas = set.schemas.insert schema.id schema := by
  obtain ⟨path, hpath, hrest⟩ := Fallible.bind_eq_ok.mp hadd
  obtain ⟨schema, hschema, hcompile⟩ := Fallible.bind_eq_ok.mp hrest
  refine ⟨schema, Fallible.bind_eq_ok.mpr ⟨path, hpath, hschema⟩, ?_⟩
  split at hcompile
  · cases hcompile
  · split at hcompile
    · cases hcompile
    · cases hcompile
      exact ⟨‹_›, rfl⟩

/-- The schema under an id, after one has been added under a new id. -/
theorem lookup_insert_new {ss : SchemaSet} {added : SchemaJSON} (hnew : added.id ∉ ss)
    (id : String) (schema : SchemaJSON) :
    (ss.insert added.id added).lookup id = some schema ↔
      ss.lookup id = some schema ∨ added = schema ∧ schema.id = id := by
  by_cases hid : id = added.id
  · subst hid
    rw [Finmap.lookup_insert, Finmap.lookup_eq_none.mpr hnew, Option.some.injEq]
    apply Iff.intro
    · intro heq
      exact Or.inr ⟨heq, congrArg SchemaJSON.id heq.symm⟩
    · rintro (hnone | ⟨heq, -⟩)
      · cases hnone
      · exact heq
  · rw [Finmap.lookup_insert_of_ne _ hid]
    apply Iff.intro
    · exact Or.inl
    · rintro (hold | ⟨rfl, heq⟩)
      · exact hold
      · exact absurd heq.symm hid

/-- The files contribute their schemas, each under its `$id`. -/
theorem lookup_foldlM_addFile {files : List String} {set set' : OpenSet env}
    (hadd : files.foldlM addFile set = .ok set') (id : String) (schema : SchemaJSON) :
    set'.schemas.lookup id = some schema ↔ set.schemas.lookup id = some schema ∨
      ∃ file ∈ files, fileSchema env file = .ok schema ∧ schema.id = id := by
  induction files generalizing set with
  | nil =>
      cases hadd
      simp
  | cons file files ih =>
      obtain ⟨middle, hfirst, hrest⟩ := Fallible.foldlM_cons_eq_ok.mp hadd
      obtain ⟨added, hadded, hnew, hmiddle⟩ := addFile_ok hfirst
      rw [ih hrest, hmiddle, lookup_insert_new hnew, or_assoc]
      simp only [List.exists_mem_cons_iff, hadded, Except.ok.injEq]

theorem lookup_newSchemaSetFromFiles {files : List String} {set : OpenSet env}
    (hset : newSchemaSetFromFiles env files = .ok set) (id : String) (schema : SchemaJSON) :
    set.schemas.lookup id = some schema ↔
      ∃ file ∈ files, fileSchema env file = .ok schema ∧ schema.id = id := by
  obtain ⟨sl, -, hfiles⟩ := Fallible.bind_eq_ok.mp hset
  rw [lookup_foldlM_addFile hfiles, Finmap.lookup_empty]
  simp

/-- The text adds the schema to the set: it can be read, it is new, and the compiler
accepts it. -/
structure Adds (set : OpenSet env) (b : Bytes) (schema : SchemaJSON) : Prop where
  read : newSchemaJSON env b = .ok schema
  new : schema.id ∉ set.schemas
  compiles : (env.compile set.loader (.bytes b)).1 = .ok ()

/-- An addition adds a schema and returns its `$id`, or it fails, or the `$id` is there
already; in the last two cases the schemas of the set stay as they are. -/
theorem addSchema_cases (set : OpenSet env) (b : Bytes) :
    (∃ schema, Adds set b schema ∧ (addSchema set b).1 = .ok schema.id ∧
      (addSchema set b).2.schemas = set.schemas.insert schema.id schema) ∨
    ((∀ schema, ¬ Adds set b schema) ∧ (addSchema set b).2.schemas = set.schemas ∧
      ((∃ e, (addSchema set b).1 = .error e) ∨
        ∃ schema, newSchemaJSON env b = .ok schema ∧ schema.id ∈ set.schemas ∧
          (addSchema set b).1 = .ok schema.id)) := by
  unfold addSchema
  cases hread : newSchemaJSON env b with
  | error e =>
      refine Or.inr ⟨fun schema hadds => ?_, rfl, Or.inl ⟨_, rfl⟩⟩
      have hok := hadds.read
      rw [hread] at hok
      cases hok
  | ok schema =>
      have hsame : ∀ schema', Adds set b schema' → schema = schema' := by
        intro schema' hadds
        exact Except.ok.inj (hread.symm.trans hadds.read)
      dsimp only
      split
      · refine Or.inr ⟨fun schema' hadds => ?_, rfl, Or.inr ⟨schema, rfl, ‹_›, rfl⟩⟩
        obtain rfl := hsame schema' hadds
        exact hadds.new ‹_›
      · split
        · rename_i hcompile
          refine Or.inr ⟨fun schema' hadds => ?_, rfl, Or.inl ⟨_, rfl⟩⟩
          have hok := hadds.compiles
          rw [hcompile] at hok
          cases hok
        · rename_i hcompile
          exact Or.inl ⟨schema, ⟨hread, ‹_›, by rw [hcompile]⟩, rfl, rfl⟩

/-! ## Runs of additions -/

theorem Obtained.nil {files : List String} {set : OpenSet env} (hset : Obtained files [] set) :
    newSchemaSetFromFiles env files = .ok set := by
  generalize hadded : ([] : List Bytes) = added at hset
  cases hset with
  | files hfiles => exact hfiles
  | add _ b =>
      exact absurd hadded.symm (List.append_ne_nil_of_right_ne_nil _ (List.cons_ne_nil _ _))

theorem Obtained.append {files : List String} {added : List Bytes} {b : Bytes} {set : OpenSet env}
    (hset : Obtained files (added ++ [b]) set) :
    ∃ before, Obtained files added before ∧ set = (addSchema before b).2 := by
  generalize hall : added ++ [b] = all at hset
  cases hset with
  | files hfiles => exact absurd hall (List.append_ne_nil_of_right_ne_nil _ (List.cons_ne_nil _ _))
  | add hbefore b' =>
      obtain ⟨rfl, hlast⟩ := List.append_inj' hall rfl
      cases hlast
      exact ⟨_, hbefore, rfl⟩

/-- The sets obtained from the files and the first of these additions. -/
def AllObtained (files : List String) (added : List Bytes) (P : OpenSet env → Prop) : Prop :=
  ∀ bs set, bs <+: added → Obtained files bs set → P set

/-- The additions, each with the set that it is made to. -/
def AllAdditions (files : List String) (added : List Bytes) (P : OpenSet env → Bytes → Prop) :
    Prop :=
  ∀ bs b set, bs ++ [b] <+: added → Obtained files bs set → P set b

/-- A property holds of all sets of a run exactly if it holds at the beginning and every
addition preserves it. -/
theorem allObtained_iff {files : List String} {added : List Bytes} {P : OpenSet env → Prop}
    {Initially : Prop} {Preserves : OpenSet env → Bytes → Prop}
    (hfiles : ∀ set, newSchemaSetFromFiles env files = .ok set → (P set ↔ Initially))
    (hadd : ∀ set b, P set → (P (addSchema set b).2 ↔ Preserves set b))
    {set : OpenSet env} (hset : Obtained files added set) :
    AllObtained files added P ↔ Initially ∧ AllAdditions files added Preserves := by
  have hstart : ∃ first, newSchemaSetFromFiles env files = .ok first := by
    induction hset with
    | files hfirst => exact ⟨_, hfirst⟩
    | add _ _ ih => exact ih
  apply Iff.intro
  · intro hall
    apply And.intro
    · obtain ⟨first, hfirst⟩ := hstart
      exact (hfiles first hfirst).mp (hall [] first List.nil_prefix (.files hfirst))
    · intro bs b before hprefix hbefore
      have hbs : bs <+: added := (List.prefix_append bs [b]).trans hprefix
      exact (hadd before b (hall bs before hbs hbefore)).mp (hall _ _ hprefix (hbefore.add b))
  · rintro ⟨hinitially, hpreserves⟩ bs
    induction bs using List.reverseRecOn with
    | nil =>
        intro first _ hfirst
        exact (hfiles first hfirst.nil).mpr hinitially
    | append_singleton bs b ih =>
        intro after hprefix hafter
        obtain ⟨before, hbefore, rfl⟩ := hafter.append
        have hbs : bs <+: added := (List.prefix_append bs [b]).trans hprefix
        exact (hadd before b (ih before hbs hbefore)).mpr (hpreserves bs b before hprefix hbefore)

/-! ## Reading texts -/

theorem newSchemaJSON_offline {decode : Bytes → Option Document} {b : Bytes} {schema : SchemaJSON} :
    newSchemaJSON (offline decode) b = .ok schema ↔
      ∃ d, decode b = some d ∧ d.schema = schema ∧ schema.id ≠ "" := by
  apply Iff.intro
  · intro hread
    have hid := newSchemaJSON_ok hread
    obtain ⟨schema', hunmarshal, hsame⟩ := Fallible.bind_eq_ok.mp hread
    have hok := Fallible.mapError_eq_ok.mp hunmarshal
    split at hsame
    · cases hsame
    · cases hsame
      cases hdecode : decode b with
      | none => simp [offline, hdecode] at hok
      | some d => exact ⟨d, rfl, by simpa [offline, hdecode] using hok, hid⟩
  · rintro ⟨d, hdecode, rfl, hid⟩
    simp [newSchemaJSON, offline, hdecode, Except.mapError, hid, bind, Except.bind]

/-- A document is added if the compiler, or the document itself, has what it refers to. -/
theorem adds_offline {decode : Bytes → Option Document} (set : OpenSet (offline decode)) {b : Bytes}
    {d : Document} (hdecode : decode b = some d) (hid : d.schema.id ≠ "")
    (hnew : d.schema.id ∉ set.schemas)
    (hresolves : ∀ ref ∈ d.schema.references, d.Resolves set.loader ref) :
    Adds set b d.schema ∧ (addSchema set b).2 =
      ⟨d.schema.id :: (set.loader : List String), set.schemas.insert d.schema.id d.schema⟩ := by
  have hread := newSchemaJSON_offline.mpr ⟨d, hdecode, rfl, hid⟩
  have hcompile : (offline decode).compile set.loader (.bytes b) =
      (.ok (), d.schema.id :: (set.loader : List String)) := by
    simp [offline, hdecode, if_pos hresolves]
  refine ⟨⟨hread, hnew, by rw [hcompile]⟩, ?_⟩
  simp only [addSchema, hread, if_neg hnew, hcompile]

/-- An environment that can read one text. -/
def reading (text : Bytes) (d : Document) : Environment :=
  offline fun b => if b = text then some d else none

/-- The empty set of that environment. -/
def noSchemas (text : Bytes) (d : Document) : OpenSet (reading text d) := ⟨([] : List String), ∅⟩

theorem obtained_noSchemas (text : Bytes) (d : Document) :
    Obtained [] [] (noSchemas text d) := .files rfl

/-- A document whose references it resolves itself is added. -/
theorem addSchema_reading (text : Bytes) (d : Document) (hid : d.schema.id ≠ "")
    (hresolves : ∀ ref ∈ d.schema.references, d.Resolves [] ref) :
    Adds (noSchemas text d) text d.schema ∧
      (addSchema (noSchemas text d) text).2.schemas = Finmap.singleton d.schema.id d.schema := by
  obtain ⟨hadds, hset⟩ := adds_offline (noSchemas text d) (if_pos rfl) hid
    Finmap.notMem_empty hresolves
  exact ⟨hadds, congrArg OpenSet.schemas hset⟩

/-- The document `base.json`, as far as it is read here. -/
def baseDocument : Document where
  schema :=
    { id := "http://github.com/kubeflow/metada/schemaparser/testdata/base.json"
      properties := Finmap.singleton "category" ⟨.name stringType, ""⟩
      allOf := [] }
  definitions := []

def baseText : Bytes :=
  ("\x7b\"$id\": \"http://github.com/kubeflow/metada/schemaparser/testdata/base.json\", " ++
    "\"properties\": \x7b\"category\": \x7b\"type\": \"string\"\x7d\x7d\x7d").toUTF8.toList

/-! ## Two texts -/

/-- The document `ext.json`, which refers to `base.json`, as far as it is read here. -/
def extDocument : Document where
  schema :=
    { id := "http://github.com/kubeflow/metadata/schemaparser/testdata/ext.json"
      properties := ∅
      allOf := [⟨some baseDocument.schema.id, ∅⟩] }
  definitions := []

def extText : Bytes :=
  ("\x7b\"$id\": \"http://github.com/kubeflow/metadata/schemaparser/testdata/ext.json\", " ++
    "\"allOf\": [\x7b\"$ref\": " ++
    "\"http://github.com/kubeflow/metada/schemaparser/testdata/base.json\"\x7d]\x7d").toUTF8.toList

def baseOrExt (b : Bytes) : Option Document :=
  if b = baseText then some baseDocument else if b = extText then some extDocument else none

theorem baseOrExt_base : baseOrExt baseText = some baseDocument := if_pos rfl

theorem baseOrExt_ext : baseOrExt extText = some extDocument := by
  have hne : extText ≠ baseText := by decide +kernel
  rw [baseOrExt, if_neg hne, if_pos rfl]

/-- The empty set of an environment that can read both. -/
def readingBoth : OpenSet (offline baseOrExt) := ⟨([] : List String), ∅⟩

theorem addSchema_base : (addSchema readingBoth baseText).2 =
    ⟨[baseDocument.schema.id], Finmap.singleton baseDocument.schema.id baseDocument.schema⟩ :=
  (adds_offline readingBoth baseOrExt_base (by decide) Finmap.notMem_empty
    fun _ href => absurd href List.not_mem_nil).2

/-- The compiler knows `base.json` then. -/
theorem adds_ext : Adds (addSchema readingBoth baseText).2 extText extDocument.schema := by
  rw [addSchema_base]
  refine (adds_offline _ baseOrExt_ext (by decide) ?_ ?_).1
  · exact fun hmem => absurd ((Finmap.mem_singleton _ _ _).mp hmem) (by decide)
  · intro ref href
    exact Or.inr (Or.inr href)

/-- `base.json` is added, and then `ext.json`. -/
theorem obtained_both : Obtained [] [baseText, extText]
    (addSchema (addSchema readingBoth baseText).2 extText).2 :=
  .add (.add (.files rfl) baseText) extText

/-- What has to be seen of the two additions. -/
theorem allAdditions_both {P : OpenSet (offline baseOrExt) → Bytes → Prop}
    (hbase : P readingBoth baseText) (hext : P (addSchema readingBoth baseText).2 extText) :
    AllAdditions [] [baseText, extText] P := by
  intro bs b set hprefix hset
  cases bs with
  | nil =>
      obtain rfl : b = baseText := (List.cons_prefix_cons.mp hprefix).1
      obtain rfl : readingBoth = set := Except.ok.inj hset.nil
      exact hbase
  | cons first bs =>
      obtain ⟨rfl, hrest⟩ := List.cons_prefix_cons.mp hprefix
      cases bs with
      | nil =>
          obtain rfl : b = extText := (List.cons_prefix_cons.mp hrest).1
          have hset' : Obtained [] ([] ++ [baseText]) set := hset
          obtain ⟨before, hbefore, rfl⟩ := hset'.append
          obtain rfl : readingBoth = before := Except.ok.inj hbefore.nil
          exact hext
      | cons second bs =>
          have hlength := hrest.length_le
          simp at hlength

end KfMetadata.Schema
