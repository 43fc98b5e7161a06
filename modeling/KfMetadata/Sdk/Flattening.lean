/-
# What a flattened artifact says

The record of an artifact has an entry under every name for which the artifact has a
property, and the property comes before what the artifact's JSON text says under that
name. The entry is the property's text, which protobuf has for a value of any kind: it is
empty for a number, so numbers are not found in the record.
-/

import KfMetadata.Sdk.Listing

namespace KfMetadata.Sdk

open Mlmd

variable {loads : Loads} {artifact : Artifact} {record : FlatRecord}
  {entries : List (String × PyValue)}

/-! ## The entries of a record -/

/-- The names that every record has entries of its own for. -/
def headerNames : List String := ["id", "workspace", "run"]

theorem lookup_setText_of_ne (result : FlatRecord) {name other : String} (value : Option Value)
    (hne : name ≠ other) : (setText result other value).lookup name = result.lookup name := by
  cases value with
  | none => rfl
  | some value => exact Finmap.lookup_insert_of_ne _ hne

theorem lookup_setText (result : FlatRecord) (name : String) (value : Option Value) :
    (setText result name value).lookup name =
      (value.map fun value => PyValue.str value.getString).or (result.lookup name) := by
  cases value with
  | none => rfl
  | some value => exact Finmap.lookup_insert _

theorem lookup_header_id : (header artifact).lookup "id" = some (.int (artifact.id.getD 0)) := by
  rw [header, lookup_setText_of_ne _ _ (by decide), lookup_setText_of_ne _ _ (by decide)]
  exact Finmap.lookup_singleton_eq

theorem lookup_header_run : (header artifact).lookup "run" =
    (artifact.customProperties.lookup runPropertyName).map
      fun value => .str value.getString := by
  have hbefore : (setText (Finmap.singleton "id" (.int (artifact.id.getD 0))) "workspace"
      (artifact.customProperties.lookup workspacePropertyName)).lookup "run" = none := by
    rw [lookup_setText_of_ne _ _ (by decide)]
    rfl
  rw [header, lookup_setText, hbefore, Option.or_none]

theorem lookup_header_of_notMem {name : String} (hname : name ∉ headerNames) :
    (header artifact).lookup name = none := by
  simp only [headerNames, List.mem_cons, List.not_mem_nil, or_false, not_or] at hname
  obtain ⟨hid, hworkspace, hrun⟩ := hname
  rw [header, lookup_setText_of_ne _ _ hrun, lookup_setText_of_ne _ _ hworkspace]
  exact Finmap.lookup_eq_none.mpr fun hmem => hid ((Finmap.mem_singleton _ _ _).mp hmem)

/-- An entry is a property's text, or else from the header, or else from the JSON text. -/
theorem lookup_of_flat (hentries : MetaItems loads artifact entries)
    (hflat : flat loads (some artifact) = .ok record) {name : String}
    (hname : name ≠ allMetaPropertyName) :
    record.lookup name = (((artifact.properties.lookup name).map
      fun value => PyValue.str value.getString).or ((header artifact).lookup name)).or
        (entries.lookup name) := by
  obtain ⟨entries', hentries', rfl⟩ := flat_eq_ok.mp hflat
  rw [hentries'.unique hentries, lookup_addMissing, lookup_texts_union _ _ hname]

/-! ## Values of every kind -/

/-- A stored value of one of the kinds, as Python has it. -/
def PyValue.ofValue : Value → Option PyValue
  | .unset => Option.none
  | .int value => some (.int value)
  | .double bits => some (.float bits)
  | .string text => some (.str text)

/-- The artifact is flattened to a record that has its values under their names. -/
def KeepsValues (loads : Loads) (artifact : Artifact) : Prop :=
  ∃ record, flat loads (some artifact) = .ok record ∧
    ∀ name, name ∉ allMetaPropertyName :: headerNames → ∀ stored value,
      artifact.properties.lookup name = some stored → PyValue.ofValue stored = some value →
      record.lookup name = some value

/-- None of these values is a number. -/
def OnlyTexts (artifact : Artifact) : Prop :=
  ∀ name, name ∉ allMetaPropertyName :: headerNames → ∀ stored,
    artifact.properties.lookup name = some stored →
      stored.type ≠ some .int ∧ stored.type ≠ some .double

/-- The text of a value stands for it exactly if the value is no number. -/
theorem str_getString_iff {stored : Value} :
    (∀ value, PyValue.ofValue stored = some value → PyValue.str stored.getString = value) ↔
      stored.type ≠ some .int ∧ stored.type ≠ some .double := by
  cases stored with
  | unset => simp [PyValue.ofValue, Value.type]
  | int number =>
      apply Iff.intro
      · intro hvalue
        cases hvalue _ rfl
      · intro hkinds
        exact absurd rfl hkinds.1
  | double bits =>
      apply Iff.intro
      · intro hvalue
        cases hvalue _ rfl
      · intro hkinds
        exact absurd rfl hkinds.2
  | string text =>
      apply Iff.intro
      · intro _
        apply And.intro
        · intro hkind
          cases hkind
        · intro hkind
          cases hkind
      · intro _ value hvalue
        exact Option.some.inj hvalue

/-- **Kinds of values.** An artifact whose JSON text is missing or an object keeps all of its
values in its record exactly if none of them is a number. -/
theorem keepsValues_iff (hreadable : ∃ entries, MetaItems loads artifact entries) :
    KeepsValues loads artifact ↔ OnlyTexts artifact := by
  obtain ⟨entries, hentries⟩ := hreadable
  have hlookup : ∀ record, flat loads (some artifact) = .ok record → ∀ name,
      name ∉ allMetaPropertyName :: headerNames → ∀ stored,
      artifact.properties.lookup name = some stored →
      record.lookup name = some (.str stored.getString) := by
    intro record hflat name hname stored hstored
    rw [lookup_of_flat hentries hflat (List.ne_of_not_mem_cons hname), hstored]
    rfl
  apply Iff.intro
  · intro hkeeps name hname stored hstored
    obtain ⟨record, hflat, hvalues⟩ := hkeeps
    apply str_getString_iff.mp
    intro value hvalue
    have hentry := hvalues name hname stored value hstored hvalue
    rw [hlookup record hflat name hname stored hstored] at hentry
    exact Option.some.inj hentry
  · intro htexts
    refine ⟨_, flat_eq_ok.mpr ⟨entries, hentries, rfl⟩, ?_⟩
    intro name hname stored value hstored hvalue
    rw [hlookup _ (flat_eq_ok.mpr ⟨entries, hentries, rfl⟩) name hname stored hstored]
    exact congrArg some (str_getString_iff.mpr (htexts name hname stored hstored) value hvalue)

/-- A network with a text and a number. -/
def network (layers : Value) : Artifact :=
  ⟨some 1, some 1, (Finmap.singleton "name" (.string "mnist")).insert "layers" layers, ∅,
    some "gs://m"⟩

/-- With a text for the layers, the record has both values. -/
theorem keepsValues_network : KeepsValues noTexts (network (.string "3")) := by
  have hreadable : ∃ entries, MetaItems noTexts (network (.string "3")) entries := ⟨[], rfl⟩
  apply (keepsValues_iff hreadable).mpr
  intro name _ stored hstored
  have htext : ∃ text, stored = .string text := by
    by_cases hlayers : name = "layers"
    · rw [hlayers] at hstored
      exact ⟨"3", (Option.some.inj hstored).symm⟩
    · rw [network, Finmap.lookup_insert_of_ne _ hlayers] at hstored
      by_cases hname : name = "name"
      · rw [hname] at hstored
        exact ⟨"mnist", (Option.some.inj hstored).symm⟩
      · rw [Finmap.lookup_eq_none.mpr fun hmem =>
          hname ((Finmap.mem_singleton _ _ _).mp hmem)] at hstored
        cases hstored
  obtain ⟨text, rfl⟩ := htext
  exact ⟨nofun, nofun⟩

/-- With three layers, the record says that the layers are an empty text. -/
theorem layers_not_kept :
    ¬ ∃ loads : Loads, ∀ artifact, (∃ entries, MetaItems loads artifact entries) →
      KeepsValues loads artifact := by
  intro ⟨loads, hclaim⟩
  obtain ⟨record, hflat, hvalues⟩ := hclaim (network (.int 3)) ⟨[], rfl⟩
  have hlayers := hvalues "layers" (by decide) (.int 3) (.int 3) rfl rfl
  have htext : flat loads (some (network (.int 3))) =
      .ok (texts (network (.int 3)).properties ∪ header (network (.int 3))) := rfl
  rw [htext] at hflat
  cases hflat
  cases hlayers

end KfMetadata.Sdk
