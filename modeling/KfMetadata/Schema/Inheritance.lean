/-
# The order of inheritance

The properties of a schema come in layers: for each `allOf` entry in order those
of the schema it refers to and then the entry's own, and last the schema's own.
One resolver of the set walks through the layers from the front and lets later
ones overwrite earlier ones, the other searches from the back for one property.
On a set that is closed under references and has no cycle of them, both find the
last declaration of a property: the one for any declaration, the other among
those of a simple type.
-/

import KfMetadata.Library.Acyclic
import KfMetadata.Schema.SchemaSet

namespace KfMetadata.Schema

open Mlmd Service Acyclicity

/-! ## References -/

/-- What the `allOf` entries of a schema refer to. -/
def SchemaJSON.references (schema : SchemaJSON) : List String := schema.allOf.filterMap Parent.ref

theorem mem_references {schema : SchemaJSON} {ref : String} :
    ref ∈ schema.references ↔ ∃ parent ∈ schema.allOf, parent.ref = some ref :=
  List.mem_filterMap

/-- The schema `id` refers to `ref`. -/
def Refers (ss : SchemaSet) (id ref : String) : Prop :=
  ∃ schema, ss.lookup id = some schema ∧ ref ∈ schema.references

/-- Every reference of the set is a key of the set. -/
def Closed (ss : SchemaSet) : Prop := ∀ id ref, Refers ss id ref → ref ∈ ss

/-- No chain of references returns to its start. -/
def NoCycle (ss : SchemaSet) : Prop := Acyclic (Refers ss)

/-- Induction along the references of a closed set without cycles: a bound that is larger
than the number of schemas is large enough. -/
theorem Closed.induction {ss : SchemaSet} (hclosed : Closed ss) (hacyclic : NoCycle ss)
    {P : Nat → String → Prop}
    (hstep : ∀ depth id, (∀ ref, Refers ss id ref → P depth ref) → id ∈ ss → P (depth + 1) id)
    {depth : Nat} (hdepth : ss.keys.card < depth) {id : String} (hid : id ∈ ss) : P depth id := by
  refine hacyclic.bounded (P := fun depth id => id ∈ ss → P depth id) ?_ (V := ss.keys) ?_
    hdepth hid
  · intro depth id hrefs hmem
    apply hstep depth id _ hmem
    intro ref href
    exact hrefs ref href (hclosed id ref href)
  · intro ref hpath
    obtain ⟨id', -, hlast⟩ := Relation.TransGen.tail'_iff.mp hpath
    exact Finmap.mem_keys.mpr (hclosed id' ref hlast)

/-! ## Layers of properties -/

/-- The layers that an `allOf` entry adds, `D` being those of each schema. -/
def Parent.layers (D : String → List (StringMap Declaration)) (parent : Parent) :
    List (StringMap Declaration) :=
  (match parent.ref with
    | none => []
    | some ref => D ref) ++ [parent.properties]

/-- The layers of a schema are those that its `allOf` entries add, in order, and then its
own properties. -/
def InheritanceOrder (ss : SchemaSet) (D : String → List (StringMap Declaration)) : Prop :=
  ∀ id schema, ss.lookup id = some schema →
    D id = schema.allOf.flatMap (Parent.layers D) ++ [schema.properties]

/-- The declarations of a property, layer by layer. -/
def declarations (layers : List (StringMap Declaration)) (name : String) : List Declaration :=
  layers.filterMap fun properties => properties.lookup name

/-- The type of the last declaration that has a simple one. -/
def lastSimpleType (layers : List (StringMap Declaration)) (name : String) : Option String :=
  ((declarations layers name).filter Declaration.isSimpleType).getLast?.map Declaration.getType

@[simp] theorem declarations_nil (name : String) : declarations [] name = [] := rfl

@[simp] theorem declarations_append (layers layers' : List (StringMap Declaration))
    (name : String) :
    declarations (layers ++ layers') name = declarations layers name ++ declarations layers' name :=
  List.filterMap_append

@[simp] theorem declarations_singleton (properties : StringMap Declaration) (name : String) :
    declarations [properties] name = (properties.lookup name).toList := by
  simp only [declarations, List.filterMap_cons, List.filterMap_nil]
  cases properties.lookup name with
  | none => rfl
  | some declaration => rfl

@[simp] theorem lastSimpleType_nil (name : String) : lastSimpleType [] name = none := rfl

@[simp] theorem lastSimpleType_append (layers layers' : List (StringMap Declaration))
    (name : String) :
    lastSimpleType (layers ++ layers') name =
      (lastSimpleType layers' name).or (lastSimpleType layers name) := by
  simp only [lastSimpleType, declarations_append, List.filter_append, List.getLast?_append,
    Option.map_or]

theorem lastSimpleType_singleton (properties : StringMap Declaration) (name : String) :
    lastSimpleType [properties] name =
      (properties.lookup name).bind fun d => if d.isSimpleType then some d.getType else none := by
  simp only [lastSimpleType, declarations_singleton]
  cases properties.lookup name with
  | none => rfl
  | some d =>
      cases hsimple : d.isSimpleType with
      | true => simp [hsimple]
      | false => simp [hsimple]

/-- A last declaration of a simple type is the last of those. -/
theorem lastSimpleType_of_getLast {layers : List (StringMap Declaration)} {name : String}
    {d : Declaration} (hlast : (declarations layers name).getLast? = some d)
    (hsimple : d.isSimpleType = true) : lastSimpleType layers name = some d.getType := by
  obtain ⟨earlier, hsplit⟩ := List.getLast?_eq_some_iff.mp hlast
  simp [lastSimpleType, hsplit, hsimple]

/-! ## One step of the resolvers -/

/-- How a search of `allOf` entries may end: nothing is found, or a property of an entry,
or it ends as resolving the reference of an entry does. -/
inductive Searched (resolve : String → Except Failure Declaration) (notFound : GoError)
    (name : String) (parents : List Parent) : Except Failure Declaration → Prop
  | notFound : Searched resolve notFound name parents (.error (.error notFound))
  | declared {parent : Parent} {d : Declaration} (hmem : parent ∈ parents)
      (hown : parent.properties.lookup name = some d) :
      Searched resolve notFound name parents (.ok d)
  | resolved {parent : Parent} {ref : String} (hmem : parent ∈ parents)
      (href : parent.ref = some ref) : Searched resolve notFound name parents (resolve ref)

theorem Searched.cons {resolve : String → Except Failure Declaration} {notFound : GoError}
    {name : String} {parents : List Parent} {result : Except Failure Declaration}
    (hsearched : Searched resolve notFound name parents result) (parent : Parent) :
    Searched resolve notFound name (parent :: parents) result := by
  cases hsearched with
  | notFound => exact .notFound
  | declared hmem hown => exact .declared (List.mem_cons_of_mem parent hmem) hown
  | resolved hmem href => exact .resolved (List.mem_cons_of_mem parent hmem) href

theorem searched_propertyTypeIn (resolve : String → Except Failure Declaration)
    (notFound : GoError) (name : String) (parents : List Parent) :
    Searched resolve notFound name parents (propertyTypeIn resolve notFound name parents) := by
  induction parents with
  | nil => exact .notFound
  | cons parent parents ih =>
      simp only [propertyTypeIn]
      cases hown : parent.properties.lookup name with
      | some d => exact .declared List.mem_cons_self hown
      | none =>
          cases href : parent.ref with
          | none => exact ih.cons parent
          | some ref =>
              have hresolved : Searched resolve notFound name (parent :: parents) (resolve ref) :=
                .resolved List.mem_cons_self href
              dsimp only
              cases hresolve : resolve ref with
              | ok d =>
                  rw [hresolve] at hresolved
                  exact hresolved
              | error failure =>
                  rw [hresolve] at hresolved
                  cases failure with
                  | tooDeep => exact hresolved
                  | error e => exact ih.cons parent

/-- Collecting the properties of `allOf` entries fails only where resolving a reference
does. -/
theorem simplePropertiesIn_error {resolve : String → Except Failure (StringMap String)}
    {id : String} {parents : List Parent} {result : StringMap String} {failure : Failure}
    (hfails : simplePropertiesIn resolve id parents result = .error failure) :
    ∃ parent ∈ parents, ∃ ref, parent.ref = some ref ∧ ∃ cause, resolve ref = .error cause ∧
      (cause = .tooDeep ↔ failure = .tooDeep) := by
  induction parents generalizing result with
  | nil => cases hfails
  | cons parent parents ih =>
      cases href : parent.ref with
      | none =>
          simp only [simplePropertiesIn, href] at hfails
          obtain ⟨other, hmem, hcause⟩ := ih hfails
          exact ⟨other, List.mem_cons_of_mem parent hmem, hcause⟩
      | some ref =>
          simp only [simplePropertiesIn, href] at hfails
          cases hresolve : resolve ref with
          | ok props =>
              rw [hresolve] at hfails
              obtain ⟨other, hmem, hcause⟩ := ih hfails
              exact ⟨other, List.mem_cons_of_mem parent hmem, hcause⟩
          | error cause =>
              refine ⟨parent, List.mem_cons_self, ref, href, cause, hresolve, ?_⟩
              rw [hresolve] at hfails
              cases cause with
              | tooDeep =>
                  cases hfails
                  exact Iff.rfl
              | error e =>
                  cases hfails
                  simp

/-- What is found of a property in a list of declarations. -/
def Finds (result : Except Failure Declaration) (found : List Declaration) : Prop :=
  match found.getLast? with
  | some declaration => result = .ok declaration
  | none => ∃ e, result = .error (.error e)

theorem finds_append_singleton {result : Except Failure Declaration} {found : List Declaration}
    {declaration : Declaration} :
    Finds result (found ++ [declaration]) ↔ result = .ok declaration := by
  simp [Finds]

/-- If every reference is resolved by its layers, so is a list of `allOf` entries. -/
theorem finds_propertyTypeIn {resolve : String → Except Failure Declaration}
    {D : String → List (StringMap Declaration)} (notFound : GoError) (name : String)
    {parents : List Parent}
    (hresolve : ∀ parent ∈ parents, ∀ ref, parent.ref = some ref →
      Finds (resolve ref) (declarations (D ref) name)) :
    Finds (propertyTypeIn resolve notFound name parents.reverse)
      (declarations (parents.flatMap (Parent.layers D)) name) := by
  induction parents using List.reverseRecOn with
  | nil => exact ⟨notFound, rfl⟩
  | append_singleton parents parent ih =>
      have hearlier := ih fun other hmem => hresolve other (List.mem_append_left _ hmem)
      have hown := hresolve parent (List.mem_append_right _ (List.mem_singleton_self _))
      rw [List.reverse_append, List.reverse_singleton, List.singleton_append,
        List.flatMap_append, List.flatMap_singleton, declarations_append, propertyTypeIn,
        Parent.layers, declarations_append, declarations_singleton]
      cases parent.properties.lookup name with
      | some declaration =>
          rw [Option.toList_some, ← List.append_assoc, finds_append_singleton]
      | none =>
          rw [Option.toList_none, List.append_nil]
          cases href : parent.ref with
          | none => simpa using hearlier
          | some ref =>
              have hfinds := hown ref href
              unfold Finds at hfinds ⊢
              rw [List.getLast?_append]
              cases hlast : (declarations (D ref) name).getLast? with
              | some declaration =>
                  rw [hlast] at hfinds
                  simp only [hfinds, Option.some_or]
              | none =>
                  rw [hlast] at hfinds
                  obtain ⟨e, he⟩ := hfinds
                  simp only [he, Option.none_or]
                  exact hearlier

/-- The map has the last simple type of every property, or else what `before` has. -/
def Collects (properties : StringMap String) (layers : List (StringMap Declaration))
    (before : StringMap String) : Prop :=
  ∀ name, properties.lookup name = (lastSimpleType layers name).or (before.lookup name)

theorem collects_union {props before : StringMap String} {layers : List (StringMap Declaration)}
    (hprops : Collects props layers ∅) : Collects (props ∪ before) layers before := by
  intro name
  have hname := hprops name
  rw [Finmap.lookup_empty, Option.or_none] at hname
  cases hlookup : props.lookup name with
  | some type =>
      rw [Finmap.lookup_union_left (Finmap.mem_of_lookup_eq_some hlookup), ← hname, hlookup]
      rfl
  | none =>
      rw [Finmap.lookup_union_right (Finmap.lookup_eq_none.mp hlookup), ← hname, hlookup]
      rfl

theorem collects_addSimpleProperties (properties : StringMap Declaration)
    (before : StringMap String) :
    Collects (addSimpleProperties properties before) [properties] before := by
  apply collects_union
  intro name
  rw [StringMap.lookup_filterMap, lastSimpleType_singleton, Finmap.lookup_empty, Option.or_none]

theorem Collects.append {m₁ m₂ m₃ : StringMap String}
    {layers layers' : List (StringMap Declaration)}
    (hsecond : Collects m₃ layers' m₂) (hfirst : Collects m₂ layers m₁) :
    Collects m₃ (layers ++ layers') m₁ := by
  intro name
  rw [hsecond name, hfirst name, lastSimpleType_append, Option.or_assoc]

/-- If every reference is resolved by its layers, so is a list of `allOf` entries. -/
theorem collects_simplePropertiesIn {resolve : String → Except Failure (StringMap String)}
    {D : String → List (StringMap Declaration)} (id : String) {parents : List Parent}
    (hresolve : ∀ parent ∈ parents, ∀ ref, parent.ref = some ref →
      ∃ props, resolve ref = .ok props ∧ Collects props (D ref) ∅) (before : StringMap String) :
    ∃ result, simplePropertiesIn resolve id parents before = .ok result ∧
      Collects result (parents.flatMap (Parent.layers D)) before := by
  induction parents generalizing before with
  | nil => exact ⟨before, rfl, fun name => rfl⟩
  | cons parent parents ih =>
      have hlater := ih fun other hmem => hresolve other (List.mem_cons_of_mem _ hmem)
      have hown := hresolve parent List.mem_cons_self
      rw [simplePropertiesIn, List.flatMap_cons, Parent.layers]
      cases href : parent.ref with
      | none =>
          obtain ⟨result, hresult, hcollects⟩ :=
            hlater (addSimpleProperties parent.properties before)
          refine ⟨result, hresult, ?_⟩
          exact hcollects.append (collects_addSimpleProperties parent.properties before)
      | some ref =>
          obtain ⟨props, hprops, hcollects⟩ := hown ref href
          obtain ⟨result, hresult, hrest⟩ :=
            hlater (addSimpleProperties parent.properties (props ∪ before))
          simp only [hprops]
          refine ⟨result, hresult, ?_⟩
          apply hrest.append
          exact (collects_addSimpleProperties _ _).append (collects_union hcollects)

/-! ## The resolvers on closed sets without cycles -/

/-- Both resolvers of a schema agree with its layers. -/
structure Agrees (ss : SchemaSet) (depth : Nat) (id : String)
    (layers : List (StringMap Declaration)) : Prop where
  propertyType : ∀ name, Finds (propertyType ss depth id name) (declarations layers name)
  simpleProperties : ∃ props, simpleProperties ss depth id = .ok props ∧
    ∀ name, props.lookup name = lastSimpleType layers name

theorem agrees_step {ss : SchemaSet} {D : String → List (StringMap Declaration)}
    (hD : InheritanceOrder ss D) {depth : Nat} {id : String}
    (hrefs : ∀ ref, Refers ss id ref → Agrees ss depth ref (D ref)) (hid : id ∈ ss) :
    Agrees ss (depth + 1) id (D id) := by
  obtain ⟨schema, hschema⟩ := Finmap.mem_iff.mp hid
  have hparents : ∀ parent ∈ schema.allOf, ∀ ref, parent.ref = some ref →
      Agrees ss depth ref (D ref) := by
    intro parent hmem ref href
    exact hrefs ref ⟨schema, hschema, mem_references.mpr ⟨parent, hmem, href⟩⟩
  rw [hD id schema hschema]
  constructor
  · intro name
    simp only [propertyType, hschema, declarations_append, declarations_singleton]
    cases schema.properties.lookup name with
    | some declaration => exact finds_append_singleton.mpr rfl
    | none =>
        rw [Option.toList_none, List.append_nil]
        apply finds_propertyTypeIn
        intro parent hmem ref href
        exact (hparents parent hmem ref href).propertyType name
  · have hresolve : ∀ parent ∈ schema.allOf, ∀ ref, parent.ref = some ref →
        ∃ props, simpleProperties ss depth ref = .ok props ∧ Collects props (D ref) ∅ := by
      intro parent hmem ref href
      obtain ⟨props, hprops, hlookup⟩ := (hparents parent hmem ref href).simpleProperties
      refine ⟨props, hprops, fun name => ?_⟩
      rw [hlookup name, Finmap.lookup_empty, Option.or_none]
    obtain ⟨result, hresult, hcollects⟩ := collects_simplePropertiesIn id hresolve ∅
    refine ⟨addSimpleProperties schema.properties result, ?_, fun name => ?_⟩
    · simp only [simpleProperties, hschema, hresult]
    · have hall := (collects_addSimpleProperties schema.properties result).append hcollects name
      rw [hall, Finmap.lookup_empty, Option.or_none]

/-- The layers of a schema, for references up to a given depth. -/
def layersUpTo (ss : SchemaSet) : Nat → String → List (StringMap Declaration)
  | 0, _ => []
  | depth + 1, id =>
      match ss.lookup id with
      | none => []
      | some schema =>
          schema.allOf.flatMap (Parent.layers (layersUpTo ss depth)) ++ [schema.properties]

theorem layersUpTo_succ {ss : SchemaSet} {id : String} {schema : SchemaJSON}
    (hschema : ss.lookup id = some schema) (depth : Nat) :
    layersUpTo ss (depth + 1) id =
      schema.allOf.flatMap (Parent.layers (layersUpTo ss depth)) ++ [schema.properties] := by
  simp only [layersUpTo, hschema]

/-- The `allOf` entries of a schema add the same layers if its references have the same. -/
theorem flatMap_layers_congr {ss : SchemaSet} {id : String} {schema : SchemaJSON}
    (hschema : ss.lookup id = some schema) {D D' : String → List (StringMap Declaration)}
    (hrefs : ∀ ref, Refers ss id ref → D ref = D' ref) :
    schema.allOf.flatMap (Parent.layers D) = schema.allOf.flatMap (Parent.layers D') := by
  apply List.flatMap_congr
  intro parent hmem
  unfold Parent.layers
  cases href : parent.ref with
  | none => rfl
  | some ref =>
      show D ref ++ [parent.properties] = D' ref ++ [parent.properties]
      rw [hrefs ref ⟨schema, hschema, mem_references.mpr ⟨parent, hmem, href⟩⟩]

/-- A closed set without cycles has an order of inheritance. -/
theorem exists_inheritanceOrder {ss : SchemaSet} (hclosed : Closed ss) (hacyclic : NoCycle ss) :
    ∃ D, InheritanceOrder ss D := by
  have hstable : ∀ {depth : Nat}, ss.keys.card < depth → ∀ {id : String}, id ∈ ss →
      ∀ depth' ≥ depth, layersUpTo ss depth' id = layersUpTo ss depth id := by
    apply hclosed.induction hacyclic
      (P := fun depth id => ∀ depth' ≥ depth, layersUpTo ss depth' id = layersUpTo ss depth id)
    intro depth id hrefs hid depth' hle
    obtain ⟨schema, hschema⟩ := Finmap.mem_iff.mp hid
    obtain ⟨larger, rfl⟩ := Nat.exists_eq_add_of_le' (Nat.lt_of_lt_of_le (Nat.succ_pos depth) hle)
    rw [layersUpTo_succ hschema, layersUpTo_succ hschema, flatMap_layers_congr hschema]
    intro ref href
    exact hrefs ref href larger (Nat.le_of_succ_le_succ hle)
  refine ⟨layersUpTo ss (ss.keys.card + 2), ?_⟩
  intro id schema hschema
  rw [layersUpTo_succ hschema, flatMap_layers_congr hschema]
  intro ref href
  exact (hstable (Nat.lt_succ_self _) (hclosed id ref href) _ (Nat.le_succ _)).symm

/-- **One order of inheritance.** On a closed set without cycles there is an order of
inheritance, and both resolvers agree with it, under every bound larger than the number of
schemas. In particular, a property of a simple type is found by both. -/
theorem resolvers_agree {ss : SchemaSet} (hclosed : Closed ss) (hacyclic : NoCycle ss) :
    (∃ D, InheritanceOrder ss D) ∧
      ∀ D, InheritanceOrder ss D → ∀ depth > ss.keys.card, ∀ id ∈ ss,
        Agrees ss depth id (D id) ∧
        ∀ name d props, propertyType ss depth id name = .ok d → d.isSimpleType = true →
          simpleProperties ss depth id = .ok props → props.lookup name = some d.getType := by
  apply And.intro
  · exact exists_inheritanceOrder hclosed hacyclic
  · intro D hD depth hdepth id hid
    have hagrees : Agrees ss depth id (D id) :=
      hclosed.induction hacyclic (P := fun depth id => Agrees ss depth id (D id))
        (fun _ _ hrefs hmem => agrees_step hD hrefs hmem) hdepth hid
    apply And.intro
    · exact hagrees
    · intro name d props hproperty hsimple hprops
      obtain ⟨props', hprops', hlookup⟩ := hagrees.simpleProperties
      obtain rfl : props' = props := by
        rw [hprops] at hprops'
        exact (Except.ok.inj hprops').symm
      rw [hlookup name]
      apply lastSimpleType_of_getLast _ hsimple
      have hfinds := hagrees.propertyType name
      unfold Finds at hfinds
      cases hlast : (declarations (D id) name).getLast? with
      | some d' =>
          rw [hlast, hproperty] at hfinds
          rw [Except.ok.inj hfinds]
      | none =>
          rw [hlast, hproperty] at hfinds
          obtain ⟨e, he⟩ := hfinds
          cases he

/-- A schema and one that extends it. -/
def baseAndExt : SchemaSet :=
  (Finmap.singleton "base.json"
    { id := "base.json"
      properties := Finmap.singleton "category" ⟨.name stringType, ""⟩
      allOf := [] }).insert "ext.json"
    { id := "ext.json"
      properties := Finmap.singleton "integer-field" ⟨.name integerType, ""⟩
      allOf := [⟨some "base.json", ∅⟩,
        ⟨none, Finmap.singleton "category" ⟨.name stringType, "str-contant"⟩⟩] }

theorem refers_baseAndExt {id ref : String} (hrefers : Refers baseAndExt id ref) :
    id = "ext.json" ∧ ref = "base.json" := by
  obtain ⟨schema, hschema, hmem⟩ := hrefers
  by_cases hext : id = "ext.json"
  · subst hext
    obtain rfl := Option.some.inj ((Finmap.lookup_insert _).symm.trans hschema)
    exact ⟨rfl, List.mem_singleton.mp hmem⟩
  · rw [baseAndExt, Finmap.lookup_insert_of_ne _ hext] at hschema
    have hbase : id = "base.json" :=
      (Finmap.mem_singleton _ _ _).mp (Finmap.mem_of_lookup_eq_some hschema)
    subst hbase
    obtain rfl := Option.some.inj ((Finmap.lookup_singleton_eq).symm.trans hschema)
    cases hmem

theorem closed_baseAndExt : Closed baseAndExt := by
  intro id ref hrefers
  obtain ⟨rfl, rfl⟩ := refers_baseAndExt hrefers
  decide

theorem noCycle_baseAndExt : NoCycle baseAndExt := by
  apply Acyclic.of_rank fun id => if id = "ext.json" then 1 else 0
  intro id ref hrefers
  obtain ⟨rfl, rfl⟩ := refers_baseAndExt hrefers
  decide

/-- The inherited property keeps its simple type in the extended schema. -/
theorem resolvers_agree_baseAndExt :
    ∃ D, InheritanceOrder baseAndExt D ∧ Agrees baseAndExt 3 "ext.json" (D "ext.json") := by
  obtain ⟨⟨D, hD⟩, hagree⟩ := resolvers_agree closed_baseAndExt noCycle_baseAndExt
  exact ⟨D, hD, (hagree D hD 3 (by decide) "ext.json" (by decide)).1⟩

end KfMetadata.Schema
