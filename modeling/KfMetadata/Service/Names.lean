/-
# Resource names

An artifact or execution is named by its type, its collection and its id. The
service builds such a name from the parent it was given and reads the id back
with an unanchored regular expression, so what is read back depends on how the
expression matches a name whose type part may be any text.
-/

import KfMetadata.Library.Regexp
import KfMetadata.Library.Text
import KfMetadata.Mlmd.Client

namespace KfMetadata.Service

open Mlmd

/-- What the handlers come in two versions for. -/
inductive Resource
  | artifact
  | execution
  deriving DecidableEq, Repr

/-- The kind of node the store keeps the resource as. -/
abbrev Resource.kind : Resource → Kind
  | .artifact => .artifact
  | .execution => .execution

/-- The resource as error texts call it. -/
def Resource.title : Resource → String
  | .artifact => "Artifact"
  | .execution => "Execution"

def artifactTypesCollection : String := "artifact_types/"
def artifactCollection : String := "artifacts/"
def executionTypesCollection : String := "execution_types/"
def executionCollection : String := "executions/"

def Resource.typesCollection : Resource → String
  | .artifact => artifactTypesCollection
  | .execution => executionTypesCollection

def Resource.collection : Resource → String
  | .artifact => artifactCollection
  | .execution => executionCollection

/-- The text between the type and the id of an instance name. -/
def Resource.separator (r : Resource) : String := "/" ++ r.collection

/-! ## The name patterns -/

/-- `.` in a pattern: any character but a newline. -/
def isAny (c : Char) : Bool := c ≠ '\n'

/-- A run of decimal digits, captured. -/
def digitsGroup : Regexp := .group (.seq (.one Char.isDigit) (.many Char.isDigit))

/-- `<types collection>.*<separator>([0-9]+)` -/
def instanceNameRE (typesCollection separator : String) : Regexp :=
  .seq (.lit typesCollection.toList)
    (.seq (.many isAny) (.seq (.lit separator.toList) digitsGroup))

def artifactNameRE : Regexp := instanceNameRE "artifact_types/" "/artifacts/"
def executionNameRE : Regexp := instanceNameRE "execution_types/" "/executions/"

def Resource.nameRE : Resource → Regexp
  | .artifact => artifactNameRE
  | .execution => executionNameRE

/-- The source text of the pattern, as error texts quote it. -/
def Resource.namePattern : Resource → String
  | .artifact => "artifact_types/.*/artifacts/([0-9]+)"
  | .execution => "execution_types/.*/executions/([0-9]+)"

theorem Resource.nameRE_eq (r : Resource) :
    r.nameRE = instanceNameRE r.typesCollection r.separator := by
  cases r <;> rfl

/-! ## Reading an id back -/

/-- The id in an instance name, as the pattern captures it. -/
def parseInstanceName (r : Resource) (name : String) : Except GoError Int :=
  match r.nameRE.submatch name.toList with
  | some [_, digits] =>
      match Text.parseInt64 (String.ofList digits) with
      | .ok id => .ok id
      | .error reason =>
          .error (.wrapf ("failed to parse " ++ r.title ++ " id from %q: %v")
            [.text (String.ofList digits)] (.number (String.ofList digits) reason))
  | _ =>
      .error (.errorf ("malformed " ++ r.title ++ " name %q. Must match pattern %q")
        [.text name, .text r.namePattern])

/-- The name of the instance with a given id under a parent. -/
def instanceName (r : Resource) (parent : String) (id : Int) : String :=
  parent ++ r.separator ++ toString id

/-- Digits take up the rest of a text and are captured whole. -/
theorem head?_ways_digitsGroup {digits : List Char} (hne : digits ≠ [])
    (hdigits : ∀ c ∈ digits, c.isDigit = true) :
    (digitsGroup.ways digits).head? = some ⟨[digits], []⟩ :=
  Regexp.head?_ways_group (Regexp.head?_ways_plus hne hdigits)

/-- A separator does not start again inside a separator followed by digits. -/
theorem separator_not_later {separator digits pre rest : List Char}
    (hslash : separator.head? = some '/') (hdigits : ∀ c ∈ digits, c.isDigit = true)
    (hpre : pre ≠ []) : separator ++ digits ≠ pre ++ (separator ++ rest) := by
  intro heq
  have hdigitsCount : digits.count '/' = 0 :=
    List.count_eq_zero.mpr fun hmem => absurd (hdigits '/' hmem) (by decide)
  have hcount := congrArg (List.count '/') heq
  simp only [List.count_append, hdigitsCount] at hcount
  -- The text before the later separator starts with a slash of its own.
  obtain ⟨c, cs, rfl⟩ := List.exists_cons_of_ne_nil hpre
  have hhead := congrArg List.head? heq
  rw [List.head?_append, hslash, List.cons_append, List.head?_cons] at hhead
  obtain rfl : '/' = c := by simpa using hhead
  rw [List.count_cons_self] at hcount
  omega

/-- **The pattern captures the last segment.** In a name built from a type text
without newlines the pattern captures exactly the digits at the end, whatever
else of its shape the type text contains. -/
theorem submatch_instanceNameRE (typesCollection : String) {separator typeName digits : String}
    (hslash : separator.toList.head? = some '/')
    (hline : '\n' ∉ typeName.toList) (hne : digits.toList ≠ [])
    (hdigits : ∀ c ∈ digits.toList, c.isDigit = true) :
    (instanceNameRE typesCollection separator).submatch
      (typesCollection ++ typeName ++ separator ++ digits).toList =
        some [(typesCollection ++ typeName ++ separator ++ digits).toList, digits.toList] := by
  have hgroup := head?_ways_digitsGroup hne hdigits
  have hlast : ((Regexp.seq (.lit separator.toList) digitsGroup).ways
      (separator.toList ++ digits.toList)).head? = some ⟨[digits.toList], []⟩ := by
    rw [Regexp.ways_seq_of_single (Regexp.ways_lit_append _ _)]
    exact hgroup
  have hlater : ∀ pre suf, pre ≠ [] → separator.toList ++ digits.toList = pre ++ suf →
      (Regexp.seq (.lit separator.toList) digitsGroup).ways suf = [] := by
    intro pre suf hpre hsplit
    refine Regexp.ways_seq_eq_nil (Regexp.ways_lit_eq_nil ?_)
    rintro rest rfl
    exact separator_not_later hslash hdigits hpre hsplit
  have hrun : ∀ c ∈ typeName.toList, isAny c = true := by
    intro c hc
    have hnl : c ≠ '\n' := fun h => hline (h ▸ hc)
    simpa [isAny] using hnl
  have hmatch := Regexp.head?_ways_many_seq hrun hlast hlater
  have htext : (typesCollection ++ typeName ++ separator ++ digits).toList =
      typesCollection.toList ++ (typeName.toList ++ (separator.toList ++ digits.toList)) := by
    simp only [String.toList_append, List.append_assoc]
  rw [htext]
  apply Regexp.submatch_of_here
  simp only [Regexp.submatchHere, instanceNameRE,
    Regexp.ways_seq_of_single (Regexp.ways_lit_append _ _), hmatch, Option.map_some,
    List.length_nil, Nat.sub_zero, List.take_length]

/-- **Reading back.** The id in a name built from a type text without newlines
is read back exactly. -/
theorem parseInstanceName_instanceName (r : Resource) {typeName : String} {id : Int}
    (hline : '\n' ∉ typeName.toList) (hnonneg : 0 ≤ id) (hrange : id < 2 ^ 63) :
    parseInstanceName r (instanceName r (r.typesCollection ++ typeName) id) = .ok id := by
  obtain ⟨n, rfl⟩ := Int.eq_ofNat_of_zero_le hnonneg
  have hchars := Text.toList_toString_natCast n
  have hslash : r.separator.toList.head? = some '/' := by
    cases r <;> decide
  have hne : (toString (n : Int)).toList ≠ [] := by
    rw [hchars]
    exact Nat.toDigits_ne_nil
  have hdigits : ∀ c ∈ (toString (n : Int)).toList, c.isDigit = true := by
    rw [hchars]
    intro c hc
    exact Nat.isDigit_of_mem_toDigits (by decide) (by decide) hc
  have hsubmatch := submatch_instanceNameRE r.typesCollection hslash hline hne hdigits
  simp only [parseInstanceName, instanceName, r.nameRE_eq, hsubmatch, String.ofList_toList,
    Text.parseInt64_toString hnonneg hrange]

end KfMetadata.Service
