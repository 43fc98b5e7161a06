/-
# Listings by type

The records are listed as a whole, or those of one type under the type's name below the
collection of types. Names and ids of types are distinct, and every record has a stored
type, whatever requests have led to the state. So the listings of the types partition
the listing of all records, where nothing is lost to a type that is not listed, or
listed twice.

The store may report that it has found no records as an error. A listing turns this
error into an empty list, and fails for no other reason than another error.
-/

import KfMetadata.Service.Concurrency
import KfMetadata.Service.Failures

namespace KfMetadata.Service

open Mlmd Remote Remote.Program

variable {E : Effect api Store} {s t : Store} {r : Resource} {name : String}

/-! ## One listing -/

/-- The lookup that a listing makes, with its reply. -/
def Fetches (E : Effect api Store) (r : Resource) (name : String) (s : Store)
    (reply : Except String (List (Item r.kind))) (t : Store) : Prop :=
  if name = "" then E (.getItems r.kind) s reply t
  else E (.getItemsByType r.kind (Text.trimPrefix name r.typesCollection)) s reply t

/-- The stored records that a listing asks for. -/
def asked (r : Resource) (name : String) (c : Contents) : List (Item r.kind) :=
  if name = "" then c.items r.kind
  else c.itemsOfType r.kind (Text.trimPrefix name r.typesCollection)

/-- Finding no records may be reported as an error, which reports nothing else. -/
structure ReportsNotFound (E : Effect api Store) : Prop where
  items : ∀ (k : Kind) (s t : Store),
    E (.getItems k) s (.error notFound) t → s.contents.items k = []
  itemsOfType : ∀ (k : Kind) (typeName : String) (s t : Store),
    E (.getItemsByType k typeName) s (.error notFound) t →
      s.contents.itemsOfType k typeName = []

/-- A call whose answer is listed, and nothing if nothing was found. -/
theorem runs_listed (op : Call) (items : op.Result → List (Item r.kind))
    {next : Except String op.Result → Program api (Except GoError (List (Item r.kind)))}
    (hok : ∀ value, next (.ok value) = pure (.ok (items value)))
    (herror : ∀ message, next (.error message) =
      if message = notFound then pure (.ok []) else pure (.error (.text message)))
    {result : Except GoError (List (Item r.kind))} :
    (call op >>= next).Runs E s result t ↔
      (∃ value, E op s (.ok value) t ∧ result = .ok (items value)) ∨
      ∃ message, E op s (.error message) t ∧
        result = if message = notFound then .ok [] else .error (.text message) := by
  rw [runs_bind]
  apply Iff.intro
  · intro hrun
    obtain ⟨reply, u, hop, hrest⟩ := hrun
    rw [Mlmd.runs_call] at hop
    cases reply with
    | ok value =>
        rw [hok] at hrest
        obtain ⟨rfl, rfl⟩ := runs_pure.mp hrest
        exact Or.inl ⟨value, hop, rfl⟩
    | error message =>
        rw [herror, ← apply_ite pure] at hrest
        obtain ⟨rfl, rfl⟩ := runs_pure.mp hrest
        exact Or.inr ⟨message, hop, rfl⟩
  · intro hreply
    cases hreply with
    | inl hvalue =>
        obtain ⟨value, hop, rfl⟩ := hvalue
        exact ⟨_, t, Mlmd.runs_call.mpr hop, by rw [hok]; exact runs_pure.mpr ⟨rfl, rfl⟩⟩
    | inr hmessage =>
        obtain ⟨message, hop, rfl⟩ := hmessage
        refine ⟨_, t, Mlmd.runs_call.mpr hop, ?_⟩
        rw [herror, ← apply_ite pure]
        exact runs_pure.mpr ⟨rfl, rfl⟩

/-- A listing ends in what its lookup is answered with. -/
theorem runs_listItems {result : Except GoError (List (Item r.kind))} :
    (listItems r name).run.Runs E s result t ↔
      (∃ items, Fetches E r name s (.ok items) t ∧ result = .ok items) ∨
      ∃ message, Fetches E r name s (.error message) t ∧
        result = if message = notFound then .ok [] else .error (.text message) := by
  unfold listItems Fetches
  dsimp only
  rw [ExceptT.run_mk]
  split
  · exact runs_listed (.getItems r.kind) id (fun _ => rfl) fun _ => rfl
  · exact runs_listed (.getItemsByType r.kind _) id (fun _ => rfl) fun _ => rfl

/-- A lookup changes nothing and finds what is asked for. -/
theorem Fetches.perm (hE : Sound E) {items : List (Item r.kind)}
    (hfetch : Fetches E r name s (.ok items) t) : items.Perm (asked r name s.contents) := by
  unfold Fetches at hfetch
  unfold asked
  split at hfetch
  next hname =>
    rw [if_pos hname]
    exact (hE.accepted (.getItems r.kind) s t items hfetch).2
  next hname =>
    rw [if_neg hname]
    exact (hE.accepted (.getItemsByType r.kind _) s t items hfetch).2

theorem Fetches.asked_eq_nil (hreports : ReportsNotFound E)
    (hfetch : Fetches E r name s (.error notFound) t) : asked r name s.contents = [] := by
  unfold Fetches at hfetch
  unfold asked
  split at hfetch
  next hname =>
    rw [if_pos hname]
    exact hreports.items r.kind s t hfetch
  next hname =>
    rw [if_neg hname]
    exact hreports.itemsOfType r.kind _ s t hfetch

/-- **What is listed.** The stored records that are asked for. -/
theorem listItems_perm (hE : Sound E) (hreports : ReportsNotFound E) {items : List (Item r.kind)}
    (hrun : (listItems r name).run.Runs E s (.ok items) t) :
    items.Perm (asked r name s.contents) := by
  cases runs_listItems.mp hrun with
  | inl hfound =>
      obtain ⟨items', hfetch, hitems⟩ := hfound
      rw [Except.ok.inj hitems]
      exact hfetch.perm hE
  | inr hfailed =>
      obtain ⟨message, hfetch, hitems⟩ := hfailed
      by_cases hmessage : message = notFound
      · subst hmessage
        rw [if_pos rfl] at hitems
        rw [Except.ok.inj hitems, hfetch.asked_eq_nil hreports]
      · rw [if_neg hmessage] at hitems
        cases hitems

/-- A listing fails only with an error other than that nothing was found. -/
theorem listItems_error {e : GoError} (hrun : (listItems r name).run.Runs E s (.error e) t) :
    ∃ message, message ≠ notFound ∧ e = .text message ∧ Fetches E r name s (.error message) t := by
  cases runs_listItems.mp hrun with
  | inl hfound =>
      obtain ⟨items, -, hitems⟩ := hfound
      cases hitems
  | inr hfailed =>
      obtain ⟨message, hfetch, hresult⟩ := hfailed
      by_cases hmessage : message = notFound
      · rw [if_pos hmessage] at hresult
        cases hresult
      · rw [if_neg hmessage] at hresult
        exact ⟨message, hmessage, Except.error.inj hresult, hfetch⟩

/-! ## All types -/

/-- The listings of the types against the listing of all records. -/
structure Partitions (s : Store) (r : Resource) (types : List TypeRecord)
    (listing : String → List (Item r.kind)) (all : List (Item r.kind)) : Prop where
  /-- All stored records are listed. -/
  stored : all.Perm (s.contents.items r.kind)
  /-- Each of them is listed once. -/
  once : all.Nodup
  /-- No record is listed for two types. -/
  disjoint : types.Pairwise fun type other =>
    (listing type.getName).Disjoint (listing other.getName)
  /-- For a type the records are listed that have its id. -/
  exact : ∀ type ∈ types,
    (listing type.getName).Perm (all.filter fun x => decide (x.typeId = type.id))
  /-- The listings of the types add up to the listing of all records. -/
  together : (types.flatMap fun type => listing type.getName).Perm all

/-- Below the collection of types the name of a type stands for the type. -/
theorem asked_type (hwf : s.contents.WellFormed) {stored : StoredType}
    (hstored : stored ∈ s.contents.types r.kind) :
    asked r (r.typesCollection ++ stored.name) s.contents =
      (s.contents.items r.kind).filter fun x => decide (x.typeId = some stored.id) := by
  have hname : r.typesCollection ++ stored.name ≠ "" := by
    intro hempty
    have hcollection : r.typesCollection = "" := (String.append_eq_empty_iff.mp hempty).1
    revert hcollection
    cases r <;> decide
  have hfind : s.contents.findType r.kind stored.name = some stored :=
    (Contents.findType_eq_some_iff hwf).mpr ⟨hstored, rfl⟩
  rw [asked, if_neg hname, Text.trimPrefix_append, Contents.itemsOfType, hfind]

/-- Listings of all types of a consistent store partition its records. -/
theorem partitions_of_consistent (hs : s.contents.Consistent) {types : List TypeRecord}
    {listing : String → List (Item r.kind)} {all : List (Item r.kind)}
    (htypes : types.Perm ((s.contents.types r.kind).map StoredType.toRecord))
    (hall : all.Perm (s.contents.items r.kind))
    (hlisting : ∀ type ∈ types, (listing type.getName).Perm
      (asked r (r.typesCollection ++ type.getName) s.contents)) :
    Partitions s r types listing all := by
  have hids : (types.map TypeRecord.id).Nodup := by
    rw [(htypes.map TypeRecord.id).nodup_iff, List.map_map]
    show ((s.contents.types r.kind).map fun stored => some stored.id).Nodup
    have hmap := (s.wellFormed.typeIds r.kind).map (Option.some_injective Int)
    rwa [List.map_map] at hmap
  have hexact : ∀ type ∈ types, (listing type.getName).Perm
      ((s.contents.items r.kind).filter fun x => decide (x.typeId = type.id)) := by
    intro type htype
    obtain ⟨stored, hstored, rfl⟩ := List.mem_map.mp (htypes.mem_iff.mp htype)
    have hasked := hlisting stored.toRecord htype
    rwa [show stored.toRecord.getName = stored.name from rfl,
      asked_type s.wellFormed hstored] at hasked
  have hcovered : ∀ x ∈ s.contents.items r.kind, x.typeId ∈ types.map TypeRecord.id := by
    intro x hx
    obtain ⟨stored, hstored, hid, -⟩ := hs.typed r.kind x hx
    have hmem : stored.toRecord ∈ types := htypes.mem_iff.mpr (List.mem_map_of_mem hstored)
    rw [hid]
    exact List.mem_map_of_mem hmem
  have hsplit := Keyed.flatMap_filter_perm_of_mem hids hcovered
  rw [List.flatMap_map] at hsplit
  exact {
    stored := hall
    once := hall.nodup_iff.mpr (s.wellFormed.itemIds r.kind).of_map
    disjoint := by
      apply (List.pairwise_map.mp hids).imp_of_mem
      intro type other htype hother hne x hx hx'
      have hid : x.typeId = type.id := by
        simpa using (List.mem_filter.mp ((hexact type htype).mem_iff.mp hx)).2
      have hid' : x.typeId = other.id := by
        simpa using (List.mem_filter.mp ((hexact other hother).mem_iff.mp hx')).2
      exact hne (hid.symm.trans hid')
    exact := fun type htype => (hexact type htype).trans (hall.symm.filter _)
    together := (List.Perm.flatMap_left types hexact).trans (hsplit.trans hall.symm) }

/-- **By-type listings.** Whatever state requests have led to from the empty store, their
calls interleaved in any way, the listings of the types that are listed partition the
listing of all records; and no listing ever fails because it is empty. -/
theorem listings_partition (hE : Sound E) (hreports : ReportsNotFound E) (ι : Type)
    [DecidableEq ι] {c : Config api Store ι Unit Request Answer}
    (hreached : (clients ι).Steps E noEnvironment (start ι) c) (r : Resource) :
    (∀ (types : List TypeRecord) (listing : String → List (Item r.kind))
      (all : List (Item r.kind)),
      (listTypes r).run.Runs E c.state (.ok types) c.state →
      (∀ type ∈ types, (listItems r (r.typesCollection ++ type.getName)).run.Runs E c.state
        (.ok (listing type.getName)) c.state) →
      (listItems r "").run.Runs E c.state (.ok all) c.state →
      Partitions c.state r types listing all) ∧
    ∀ (name : String) (e : GoError) (t : Store),
      (listItems r name).run.Runs E c.state (.error e) t →
      ∃ message, message ≠ notFound ∧ e = .text message ∧
        Fetches E r name c.state (.error message) t := by
  have hconsistent := (consistent_of_steps hE ι hreached Relation.ReflTransGen.refl).1
  apply And.intro
  · intro types listing all htypes hlisting hall
    rw [listTypes, runs_storeCall_ok (.getTypes r.kind)] at htypes
    apply partitions_of_consistent hconsistent
    · exact (hE.accepted (.getTypes r.kind) c.state c.state types htypes).2
    · exact listItems_perm hE hreports hall
    · exact fun type htype => listItems_perm hE hreports (hlisting type htype)
  · exact fun name e t hrun => listItems_error hrun

/-! ## A store that reports what it does not find -/

/-- The store in memory, except that an empty listing is an error. -/
def reporting : Server api Store
  | .getItems k, s =>
      if s.contents.items k = [] then (.error notFound, s) else inMemory (.getItems k) s
  | .getItemsByType k typeName, s =>
      if s.contents.itemsOfType k typeName = [] then (.error notFound, s)
      else inMemory (.getItemsByType k typeName) s
  | op, s => inMemory op s

theorem reporting_eq (op : Call) (s : Store) :
    reporting op s = inMemory op s ∨ reporting op s = (.error notFound, s) := by
  cases op with
  | getItems k => exact (ite_eq_or_eq _ _ _).symm
  | getItemsByType k typeName => exact (ite_eq_or_eq _ _ _).symm
  | _ => exact Or.inl rfl

theorem reporting_sound : Sound reporting.effect where
  accepted op s t result heffect := by
    cases reporting_eq op s with
    | inl hsame => exact inMemory_available.accepted op s t result (hsame.symm.trans heffect)
    | inr hnone => cases hnone.symm.trans heffect
  failed op s t error heffect := by
    cases reporting_eq op s with
    | inl hsame =>
        exact inMemory_available.toLawful.sound.failed op s t error (hsame.symm.trans heffect)
    | inr hnone => exact Or.inl (Prod.mk.inj (hnone.symm.trans heffect)).2.symm

/-- What is read in memory is not refused, so that only empty listings are. -/
theorem reporting_reportsNotFound : ReportsNotFound reporting.effect where
  items k s t heffect := by
    by_cases hempty : s.contents.items k = []
    · exact hempty
    · have hread : inMemory (.getItems k) s = (.error notFound, t) :=
        (if_neg hempty).symm.trans heffect
      cases (inMemory_error hread).1
  itemsOfType k typeName s t heffect := by
    by_cases hempty : s.contents.itemsOfType k typeName = []
    · exact hempty
    · have hread : inMemory (.getItemsByType k typeName) s = (.error notFound, t) :=
        (if_neg hempty).symm.trans heffect
      cases (inMemory_error hread).1

/-- The store after a request. -/
def served (s : Store) (request : Request) : Store :=
  (((clients Unit).body () () request).run reporting s).2

/-- Serving requests one after another is one of the interleavings. -/
theorem steps_served (requests : List Request) (s : Store) :
    (clients Unit).Steps reporting.effect noEnvironment ⟨s, fun _ => .idle ()⟩
      ⟨requests.foldl served s, fun _ => .idle ()⟩ := by
  induction requests generalizing s with
  | nil => exact Relation.ReflTransGen.refl
  | cons request requests ih =>
      let program := (clients Unit).body () () request
      let busy : Config api Store Unit Unit Request Answer := ⟨served s request,
        Function.update (fun _ => .idle ()) ()
          (.busy () request (.done (program.run reporting s).1))⟩
      have hcalls : (clients Unit).Steps reporting.effect noEnvironment
          ⟨s, fun _ => .idle ()⟩ busy :=
        Clients.Steps.of_runs (clients Unit) noEnvironment () () request rfl trivial
          (runs_of_run reporting program s)
      have hfinish : (clients Unit).Step reporting.effect noEnvironment busy
          { busy with phase := Function.update busy.phase () (.idle ()) } :=
        Clients.Step.finish () () request _ rfl
      exact (hcalls.tail hfinish).trans (ih (served s request))

/-- A type with a record, and one without. -/
def oneOfTwoRequests : List Request :=
  [.createArtifactType (some ⟨none, some "m", ∅⟩), .createArtifactType (some ⟨none, some "n", ∅⟩),
    .createArtifact "artifact_types/m" (some ⟨none, none, ∅, ∅, none⟩)]

def oneOfTwo : Store := oneOfTwoRequests.foldl served Store.empty

/-- The second type's empty listing is reported as an error, and is empty. -/
theorem listings_partition_oneOfTwo :
    Partitions oneOfTwo .artifact [⟨some 1, some "m", ∅⟩, ⟨some 2, some "n", ∅⟩]
      (fun name => if name = "m" then [⟨some 1, some 1, ∅, ∅, none⟩] else [])
      [⟨some 1, some 1, ∅, ∅, none⟩] := by
  apply (listings_partition reporting_sound reporting_reportsNotFound Unit
    (steps_served oneOfTwoRequests Store.empty) .artifact).1
  · exact (runs_storeCall_ok (.getTypes .artifact)).mpr rfl
  · intro type htype
    apply runs_listItems.mpr
    cases List.mem_pair.mp htype with
    | inl hm =>
        subst hm
        exact Or.inl ⟨_, rfl, rfl⟩
    | inr hn =>
        subst hn
        exact Or.inr ⟨notFound, rfl, rfl⟩
  · exact runs_listItems.mpr (Or.inl ⟨_, rfl, rfl⟩)

end KfMetadata.Service
