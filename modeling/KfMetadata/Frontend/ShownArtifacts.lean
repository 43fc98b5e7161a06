/-
# What the page of an artifact shows over time

An invariant of the page, its loads and the store that they are sent to. A reply that is
under way is right as long as it is under way, because the store only grows and a record
that is found under an id stays the one. A load finds nothing only if nothing was there when
the page was opened, and an error is one of the store.

So the page shows an object that a user of the client has logged: without an error, and with
the texts that are stored of it.
-/

import KfMetadata.Frontend.ArtifactDetails
import KfMetadata.Sdk.Lineage
import KfMetadata.Sdk.ServedLogs
import Mathlib.Data.Finset.Sort
import Mathlib.Data.String.Basic

namespace KfMetadata.Frontend

open Mlmd Remote Schema

variable {host : Host} {lib : ResourceLibrary} {params : ArtifactParams} {E : Effect api Store}
  {n : Int} {first s t : Store} {w v : ArtifactWorld}

/-! ## What is right -/

/-- An error of the store for a lookup of the artifact, since the page was opened. -/
def Refused (E : Effect api Store) (n : Int) (first : Store) (err : Thrown) : Prop :=
  ∃ s t message, first.Grows s ∧ E (.getItemsByID .artifact [n]) s (.error message) t ∧
    err.message = message

/-- The replies that a load may be sent. -/
inductive ReplyRight (E : Effect api Store) (n : Int) (first s : Store) :
    Except Thrown (List Artifact) → Prop
  | found {a : Artifact} (hstored : s.findItem .artifact n = some a) :
      ReplyRight E n first s (.ok [a])
  | missing (hmissing : first.findItem .artifact n = none) : ReplyRight E n first s (.ok [])
  | refused {err : Thrown} (hrefused : Refused E n first err) :
      ReplyRight E n first s (.error err)

theorem ReplyRight.grows {reply : Except Thrown (List Artifact)}
    (hreply : ReplyRight E n first s reply) (hgrows : s.Grows t) :
    ReplyRight E n first t reply := by
  cases hreply with
  | found hstored => exact .found (hgrows.findItem hstored)
  | missing hmissing => exact .missing hmissing
  | refused hrefused => exact .refused hrefused

/-- What the store replies is right. -/
theorem replyRight_of_effect (hE : Sound E) (hgrows : first.Grows s)
    {reply : Except String (List Artifact)}
    (heffect : E (.getItemsByID .artifact [n]) s reply t) (code : Option Int) :
    t = s ∧ ReplyRight E n first s (seenAs code reply) := by
  have hread : Call.IsRead (.getItemsByID .artifact [n]) := trivial
  obtain rfl : t = s := hE.read hread heffect
  refine ⟨rfl, ?_⟩
  cases reply with
  | error message => exact .refused ⟨t, t, message, hgrows, heffect, rfl⟩
  | ok artifacts =>
      have hdoc := hE.accepted (.getItemsByID .artifact [n]) _ _ _ heffect
      have hfound := documented_getItemsByID t.wellFormed hdoc
      change artifacts = (t.findItem .artifact n).toList at hfound
      cases hstored : t.findItem .artifact n with
      | some a =>
          rw [hstored] at hfound
          rw [hfound]
          exact .found hstored
      | none =>
          rw [hstored] at hfound
          rw [hfound]
          refine .missing (Option.eq_none_iff_forall_ne_some.mpr fun a ha => ?_)
          rw [hgrows.findItem ha] at hstored
          cases hstored

/-- An error on the page says that nothing was found, or what the store said. -/
def ErrorRight (host : Host) (params : ArtifactParams) (E : Effect api Store) (n : Int)
    (first : Store) (message : String) : Prop :=
  message = ArtifactDetails.notFoundMessage host params ∧ first.findItem .artifact n = none ∨
    ∃ err, Refused E n first err ∧ message = serviceErrorToString err

/-- What the page shows: nothing yet, or a stored artifact under its title. -/
structure ArtifactDetails.Right (host : Host) (lib : ResourceLibrary) (params : ArtifactParams)
    (E : Effect api Store) (n : Int) (first s : Store) (page : ArtifactDetails) : Prop where
  shown : page.artifact = none ∧ page.pageTitle = (init host lib params).pageTitle ∨
    ∃ a, page.artifact = some a ∧ s.findItem .artifact n = some a ∧
      page.pageTitle = titleOf host lib a
  errors : ∀ message ∈ page.pageErrors, ErrorRight host params E n first message

theorem ArtifactDetails.Right.grows {page : ArtifactDetails}
    (hpage : page.Right host lib params E n first s) (hgrows : s.Grows t) :
    page.Right host lib params E n first t where
  shown := by
    apply hpage.shown.imp_right
    rintro ⟨a, ha, hstored, htitle⟩
    exact ⟨a, ha, hgrows.findItem hstored, htitle⟩
  errors := hpage.errors

theorem ArtifactDetails.Right.showPageError {page : ArtifactDetails}
    (hpage : page.Right host lib params E n first s) {message : String}
    (hmessage : ErrorRight host params E n first message) :
    (page.showPageError message).Right host lib params E n first s where
  shown := hpage.shown
  errors other hother := by
    rcases List.mem_append.mp hother with hold | hnew
    · exact hpage.errors other hold
    · rw [List.mem_singleton.mp hnew]
      exact hmessage

/-- A right reply leads to a right page. -/
theorem ArtifactDetails.Right.received {page : ArtifactDetails}
    (hpage : page.Right host lib params E n first s) {reply : Except Thrown (List Artifact)}
    (hreply : ReplyRight E n first s reply) :
    (page.received host lib params reply).Right host lib params E n first s := by
  cases hreply with
  | found hstored => exact ⟨Or.inr ⟨_, rfl, hstored, rfl⟩, hpage.errors⟩
  | missing hmissing => exact hpage.showPageError (Or.inl ⟨rfl, hmissing⟩)
  | refused hrefused => exact hpage.showPageError (Or.inr ⟨_, hrefused, rfl⟩)

/-! ## The invariant -/

/-- What holds of the page of an artifact, since it was opened over a store. -/
structure ArtifactHolds (host : Host) (lib : ResourceLibrary) (params : ArtifactParams)
    (E : Effect api Store) (n : Int) (first : Store) (w : ArtifactWorld) : Prop where
  grows : first.Grows w.store
  page : w.page.Right host lib params E n first w.store
  loads : ∀ reply, some reply ∈ w.loads → ReplyRight E n first w.store reply

theorem artifactHolds_opened (s : Store) :
    ArtifactHolds host lib params E n s (.opened host lib params s) where
  grows := Contents.Grows.refl _
  page := ⟨Or.inl ⟨rfl, rfl⟩, fun _ hmessage => absurd hmessage List.not_mem_nil⟩
  loads _ hreply := absurd hreply List.not_mem_nil

theorem ArtifactHolds.step (hE : Sound E)
    (hid : lib.toInt64 (ArtifactDetails.id host params) = n)
    (hw : ArtifactHolds host lib params E n first w) (hstep : ArtifactStep host lib params E w v) :
    ArtifactHolds host lib params E n first v := by
  cases hstep with
  | outside t hgrows =>
      exact ⟨hw.grows.trans hgrows, hw.page.grows hgrows, fun reply hreply =>
        (hw.loads reply hreply).grows hgrows⟩
  | load =>
      refine ⟨hw.grows, hw.page, fun reply hreply => hw.loads reply ?_⟩
      simpa using hreply
  | evaluated code hpending heffect =>
      subst hid
      obtain ⟨rfl, hsent⟩ := replyRight_of_effect hE hw.grows heffect code
      refine ⟨hw.grows, hw.page, fun reply hreply => ?_⟩
      rcases List.mem_or_eq_of_mem_set hreply with hold | hnew
      · exact hw.loads reply hold
      · cases hnew
        exact hsent
  | answered hreply =>
      exact ⟨hw.grows, hw.page.received (hw.loads _ (List.mem_of_getElem? hreply)),
        fun reply hmem => hw.loads reply (List.mem_of_mem_eraseIdx hmem)⟩

theorem ArtifactHolds.steps (hE : Sound E)
    (hid : lib.toInt64 (ArtifactDetails.id host params) = n)
    (hw : ArtifactHolds host lib params E n first w)
    (hsteps : Relation.ReflTransGen (ArtifactStep host lib params E) w v) :
    ArtifactHolds host lib params E n first v := by
  induction hsteps with
  | refl => exact hw
  | tail _ hstep ih => exact ih.step hE hid hstep

/-! ## A browser and a client library -/

/-- The browser, with the ids of pages as numbers. -/
def numberHost : Host :=
  { plainHost with
    stringToNumber := fun text =>
      match Text.parseInt64 text with
      | .ok value => .finite value
      | .error _ => .nan }

/-- The client library, for resources whose properties are texts. -/
def textLibrary : ResourceLibrary where
  getResourceProperty resource property custom :=
    let properties := if custom then resource.customProperties else resource.properties
    match property with
    | .name => ((properties.lookup "name").map fun value => Cell.text value.getString).getD .null
    | _ => .null
  getTypeName _ _ := ""
  getVersion artifact :=
    ((artifact.properties.lookup "version").map fun value => Cell.text value.getString).getD .null
  getMetadataValue value := .text ((value.map Value.getString).getD "")
  entryNames properties := properties.keys.sort (· ≤ ·)
  stringify _ := ""
  titleCase name := name
  toInt64
    | .finite value => value.num
    | _ => 0

def modelParams : ArtifactParams := ⟨some "kubeflow.org/alpha/model", "1"⟩

theorem modelParams_id : textLibrary.toInt64 (ArtifactDetails.id numberHost modelParams) = 1 := by
  decide +kernel

/-! ## What the page shows -/

/-- The page with an artifact, and without an error. -/
def ArtifactDetails.showing (host : Host) (lib : ResourceLibrary) (a : Artifact) :
    ArtifactDetails := ⟨some a, titleOf host lib a, []⟩

/-- **The page shows the store.** However the page of an artifact is loaded and its loads are
evaluated and answered, while others add to the store: an artifact on the page is the one
that is stored under the id of the page, and the title is its title. An error says that
there is no such artifact, and there was none when the page was opened, or else it says what
the store has said. -/
theorem artifact_page_shows_store (hE : Sound E)
    (hid : lib.toInt64 (ArtifactDetails.id host params) = n)
    (hsteps : Relation.ReflTransGen (ArtifactStep host lib params E)
      (.opened host lib params s) w) :
    (∀ a, w.page.artifact = some a → w.store.findItem .artifact n = some a ∧
      w.page.pageTitle = ArtifactDetails.titleOf host lib a) ∧
    ∀ message ∈ w.page.pageErrors, ErrorRight host params E n s message := by
  have hw := (artifactHolds_opened s).steps hE hid hsteps
  refine ⟨fun a ha => ?_, hw.page.errors⟩
  rcases hw.page.shown with ⟨hnone, -⟩ | ⟨b, hb, hstored, htitle⟩
  · rw [hnone] at ha
    cases ha
  · obtain rfl := Option.some.inj (hb.symm.trans ha)
    exact ⟨hstored, htitle⟩

/-- The page is loaded once, and answered. -/
theorem steps_loaded (hid : lib.toInt64 (ArtifactDetails.id host params) = n) {a : Artifact}
    (ha : s.findItem .artifact n = some a) :
    Relation.ReflTransGen (ArtifactStep host lib params willing) (.opened host lib params s)
      ⟨s, .showing host lib a, []⟩ := by
  subst hid
  obtain ⟨reply, t, heffect⟩ := willing_available.responds (artifactRequest host lib params) s
  obtain ⟨rfl, rfl⟩ := Sdk.willing_obliging.getItemsByID ha heffect
  let first : ArtifactWorld := ⟨t, .init host lib params, [none]⟩
  let second : ArtifactWorld := ⟨t, .init host lib params, [some (.ok [a])]⟩
  have hload : ArtifactStep host lib params willing (.opened host lib params t) first := .load
  have hevaluated : ArtifactStep host lib params willing first second :=
    @ArtifactStep.evaluated _ _ _ _ first 0 (.ok [a]) t none rfl heffect
  have hanswered : ArtifactStep host lib params willing second ⟨t, .showing host lib a, []⟩ :=
    @ArtifactStep.answered _ _ _ _ second 0 (.ok [a]) rfl
  exact ((Relation.ReflTransGen.single hload).tail hevaluated).tail hanswered

/-- The page of the first artifact that a client has logged. -/
theorem artifact_page_shows_store_model : ∃ a, ∃ w : ArtifactWorld,
    w.store = Sdk.attributed.state ∧ w.page = .showing numberHost textLibrary a ∧
      w.store.findItem .artifact 1 = some a ∧
      w.page.pageTitle = ArtifactDetails.titleOf numberHost textLibrary a := by
  obtain ⟨a, ha⟩ : ∃ a, Sdk.attributed.state.findItem .artifact 1 = some a := ⟨_, rfl⟩
  obtain ⟨hshows, -⟩ := artifact_page_shows_store willing_available.toLawful.sound modelParams_id
    (steps_loaded modelParams_id ha)
  exact ⟨a, _, rfl, rfl, hshows a rfl⟩

open Sdk (LoggedObject workspacePropertyName runPropertyName)

section Objects

variable {dumps : Sdk.Dumps} {self : Sdk.Execution} {x : LoggedObject}

end Objects

section Logged

open Sdk (Memory Task Ending Reached StandsFor Dumps)

variable {ι : Type} [DecidableEq ι] {dumps : Dumps} {memories : ι → Memory}
  {c : Config api Store ι Memory Task Ending} {i : ι}

end Logged

end KfMetadata.Frontend
