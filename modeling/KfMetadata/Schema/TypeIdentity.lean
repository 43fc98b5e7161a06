/-
# What identifies a type

A schema names its type by three constants: a namespace, a version and a kind.
The registered name joins them with slashes, and a slash in a constant looks like
one of these. Two schemas that share a name therefore agree on the segments of
the three constants taken together, and differ in a constant exactly if the
segments are cut at other places.
-/

import KfMetadata.Library.PathTemplate
import KfMetadata.Schema.Restart

namespace KfMetadata.Schema

open Mlmd Service PathTemplate

/-! ## Type information -/

/-- The constants that identify a version of a type. -/
structure TypeInfo where
  space : String
  apiversion : String
  kind : String
  deriving DecidableEq, Repr

namespace TypeInfo

/-- The name that the type is registered with. -/
def name (t : TypeInfo) : String := t.space ++ "/" ++ t.apiversion ++ "/" ++ t.kind

/-- The segments of the constants, one after another. -/
def allSegments (t : TypeInfo) : List String :=
  segments t.space ++ segments t.apiversion ++ segments t.kind

/-- How many of these belong to the version and to the kind. -/
def cuts (t : TypeInfo) : Nat × Nat := ((segments t.apiversion).length, (segments t.kind).length)

theorem segments_name (t : TypeInfo) : segments t.name = t.allSegments := by
  rw [name, segments_append, segments_append, allSegments]

theorem name_eq_iff {t u : TypeInfo} : t.name = u.name ↔ t.allSegments = u.allSegments := by
  rw [← segments_name, ← segments_name]
  exact segments_injective.eq_iff.symm

/-- The segments and the places of the cuts determine the constants. -/
theorem eq_of_allSegments {t u : TypeInfo} (hsegs : t.allSegments = u.allSegments)
    (hcuts : t.cuts = u.cuts) : t = u := by
  obtain ⟨hversions, hkinds⟩ := Prod.mk.inj hcuts
  obtain ⟨hfront, hkind⟩ := List.append_inj' hsegs hkinds
  obtain ⟨hspace, hversion⟩ := List.append_inj' hfront hversions
  cases t
  cases u
  rw [mk.injEq]
  exact ⟨segments_injective hspace, segments_injective hversion, segments_injective hkind⟩

/-- The same segments in the same order, but cut at other places. -/
def SlashesMoved (t u : TypeInfo) : Prop := t.allSegments = u.allSegments ∧ t.cuts ≠ u.cuts

instance (t u : TypeInfo) : Decidable (SlashesMoved t u) := inferInstanceAs (Decidable (_ ∧ _))

/-- **Identity.** A name stands for one type exactly if no slash has been moved. -/
theorem identified_iff {t u : TypeInfo} : (t.name = u.name → t = u) ↔ ¬ SlashesMoved t u := by
  rw [name_eq_iff]
  apply Iff.intro
  · intro hsame hmoved
    exact hmoved.2 (congrArg cuts (hsame hmoved.1))
  · intro hnot hsegs
    exact eq_of_allSegments hsegs (not_not.mp fun hcuts => hnot ⟨hsegs, hcuts⟩)

/-- Slashes in namespaces alone do no harm. -/
theorem not_slashesMoved {t u : TypeInfo}
    (ht : '/' ∉ t.apiversion.toList ∧ '/' ∉ t.kind.toList)
    (hu : '/' ∉ u.apiversion.toList ∧ '/' ∉ u.kind.toList) : ¬ SlashesMoved t u := by
  intro hmoved
  apply hmoved.2
  simp only [cuts, segments_of_notMem ht.1, segments_of_notMem ht.2, segments_of_notMem hu.1,
    segments_of_notMem hu.2, List.length_singleton]

end TypeInfo

/-! ## Names of schemas -/

/-- The constants of a schema. -/
def typeInfo (ss : SchemaSet) (depth : Nat) (id : String) : Except Failure TypeInfo := do
  let space ← constantStringType ss depth id namespacePropertyName
  let kind ← constantStringType ss depth id kindPropertyName
  let version ← constantStringType ss depth id versionPropertyName
  return ⟨space, version, kind⟩

variable {ss : SchemaSet} {depth : Nat} {id id' : String}

theorem typeInfo_ok_iff {t : TypeInfo} : typeInfo ss depth id = .ok t ↔
    constantStringType ss depth id namespacePropertyName = .ok t.space ∧
      constantStringType ss depth id versionPropertyName = .ok t.apiversion ∧
      constantStringType ss depth id kindPropertyName = .ok t.kind := by
  unfold typeInfo
  cases constantStringType ss depth id namespacePropertyName with
  | error failure => exact ⟨nofun, fun hconstants => nomatch hconstants.1⟩
  | ok space =>
      cases constantStringType ss depth id kindPropertyName with
      | error failure => exact ⟨nofun, fun hconstants => nomatch hconstants.2.2⟩
      | ok kind =>
          cases constantStringType ss depth id versionPropertyName with
          | error failure => exact ⟨nofun, fun hconstants => nomatch hconstants.2.1⟩
          | ok version =>
              apply Iff.intro
              · intro hinfo
                cases hinfo
                exact ⟨rfl, rfl, rfl⟩
              · intro hconstants
                obtain ⟨hspace, hversion, hkind⟩ := hconstants
                cases hspace
                cases hversion
                cases hkind
                rfl

/-- The name of a type is made of its constants. -/
theorem typeName_ok_iff {space typename : String} :
    typeName ss depth id = .ok (space, typename) ↔
      ∃ t, typeInfo ss depth id = .ok t ∧ space = t.space ++ "/" ++ t.apiversion ∧
        typename = t.kind := by
  have hmap : typeName ss depth id =
      (typeInfo ss depth id).map fun t => (t.space ++ "/" ++ t.apiversion, t.kind) := by
    unfold typeName typeInfo
    cases constantStringType ss depth id namespacePropertyName with
    | error failure => rfl
    | ok space =>
        cases constantStringType ss depth id kindPropertyName with
        | error failure => rfl
        | ok kind => cases constantStringType ss depth id versionPropertyName <;> rfl
  rw [hmap]
  cases typeInfo ss depth id with
  | error failure => exact ⟨nofun, fun hinfo => nomatch hinfo.choose_spec.1⟩
  | ok t =>
      apply Iff.intro
      · intro hname
        cases hname
        exact ⟨t, rfl, rfl, rfl⟩
      · intro hinfo
        obtain ⟨u, hu, rfl, rfl⟩ := hinfo
        cases hu
        rfl

/-- Two schemas have the same constants. -/
def SameTriple (ss : SchemaSet) (depth : Nat) (id id' : String) : Prop :=
  ∀ name ∈ [namespacePropertyName, versionPropertyName, kindPropertyName],
    constantStringType ss depth id name = constantStringType ss depth id' name

/-- Types that are registered under one name come from schemas with the same constants. -/
structure Identifies (ss : SchemaSet) (depth : Nat) (id id' : String) : Prop where
  names : ∀ space typename space' typename', typeName ss depth id = .ok (space, typename) →
    typeName ss depth id' = .ok (space', typename') →
    space ++ "/" ++ typename = space' ++ "/" ++ typename' → SameTriple ss depth id id'
  /-- so no two other schemas are merged, or clash -/
  registered : ∀ r type r' type', schemaType ss depth id = .ok (some (r, type)) →
    schemaType ss depth id' = .ok (some (r', type')) → type.getName = type'.getName →
    SameTriple ss depth id id'

/-- The constants of two schemas have the same segments, cut at other places. -/
def MovesSlashes (ss : SchemaSet) (depth : Nat) (id id' : String) : Prop :=
  ∃ t u, typeInfo ss depth id = .ok t ∧ typeInfo ss depth id' = .ok u ∧ t.SlashesMoved u

theorem sameTriple_iff {t u : TypeInfo} (ht : typeInfo ss depth id = .ok t)
    (hu : typeInfo ss depth id' = .ok u) : SameTriple ss depth id id' ↔ t = u := by
  obtain ⟨hspace, hversion, hkind⟩ := typeInfo_ok_iff.mp ht
  obtain ⟨hspace', hversion', hkind'⟩ := typeInfo_ok_iff.mp hu
  cases t
  cases u
  simp only [SameTriple, List.forall_mem_cons, List.not_mem_nil, false_implies, forall_const,
    and_true, hspace, hversion, hkind, hspace', hversion', hkind', Except.ok.injEq,
    TypeInfo.mk.injEq]

/-- **Registered names.** They identify the constants of two schemas exactly if the slashes
of these do not make the same segments in two ways. -/
theorem identifies_iff (ss : SchemaSet) (depth : Nat) (id id' : String) :
    Identifies ss depth id id' ↔ ¬ MovesSlashes ss depth id id' := by
  apply Iff.intro
  · intro hidentifies hmoves
    obtain ⟨t, u, ht, hu, hmoved⟩ := hmoves
    apply TypeInfo.identified_iff.mp ?_ hmoved
    intro hname
    exact (sameTriple_iff ht hu).mp (hidentifies.names _ _ _ _
      (typeName_ok_iff.mpr ⟨t, ht, rfl, rfl⟩) (typeName_ok_iff.mpr ⟨u, hu, rfl, rfl⟩) hname)
  · intro hnot
    have hnames : ∀ space typename space' typename',
        typeName ss depth id = .ok (space, typename) →
        typeName ss depth id' = .ok (space', typename') →
        space ++ "/" ++ typename = space' ++ "/" ++ typename' → SameTriple ss depth id id' := by
      intro space typename space' typename' hname hname' heq
      obtain ⟨t, ht, rfl, rfl⟩ := typeName_ok_iff.mp hname
      obtain ⟨u, hu, rfl, rfl⟩ := typeName_ok_iff.mp hname'
      exact (sameTriple_iff ht hu).mpr
        (TypeInfo.identified_iff.mpr (fun hmoved => hnot ⟨t, u, ht, hu, hmoved⟩) heq)
    refine ⟨hnames, ?_⟩
    intro r type r' type' htype htype' heq
    obtain ⟨space, typename, properties, hname, hnew⟩ := schemaType_eq_ok htype
    obtain ⟨space', typename', properties', hname', hnew'⟩ := schemaType_eq_ok htype'
    rw [(newType_eq_ok hnew).2, (newType_eq_ok hnew').2] at heq
    exact hnames _ _ _ _ hname hname' heq

/-! ## A slash in a version -/

/-- A schema of an artifact type with these constants. -/
def schemaOf (id : String) (t : TypeInfo) : SchemaJSON where
  id := id
  properties := (((Finmap.singleton namespacePropertyName (constantText t.space)).insert
    kindPropertyName (constantText t.kind)).insert
    versionPropertyName (constantText t.apiversion)).insert
    categoryPropertyName (constantText artifactCategory)
  allOf := []

/-- Two schemas whose constants differ. -/
def groupedVersions : SchemaSet :=
  (Finmap.singleton "outer" (schemaOf "outer" ⟨"kubeflow.org", "ml/v1", "model"⟩)).insert "inner"
    (schemaOf "inner" ⟨"kubeflow.org/ml", "v1", "model"⟩)

/-- Both are registered as `kubeflow.org/ml/v1/model`. -/
theorem grouped_versions_merged :
    ¬ ∀ (ss : SchemaSet) (depth : Nat) (id id' : String), Identifies ss depth id id' := by
  intro hclaim
  have houter : typeName groupedVersions 1 "outer" = .ok ("kubeflow.org/ml/v1", "model") := rfl
  have hinner : typeName groupedVersions 1 "inner" = .ok ("kubeflow.org/ml/v1", "model") := rfl
  have hsame := (hclaim groupedVersions 1 "outer" "inner").names _ _ _ _ houter hinner rfl
  have houter' : constantStringType groupedVersions 1 "outer" namespacePropertyName =
      .ok "kubeflow.org" := rfl
  have hinner' : constantStringType groupedVersions 1 "inner" namespacePropertyName =
      .ok "kubeflow.org/ml" := rfl
  have hspace := hsame namespacePropertyName List.mem_cons_self
  rw [houter', hinner'] at hspace
  exact absurd (Except.ok.inj hspace) (by decide)

end KfMetadata.Schema
