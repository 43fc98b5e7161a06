/-
# Requests that are sent after an answer

A client that has been answered tells another one, which then sends a request of its
own. Other requests may be on their way all the time. What the second client is told
includes what the first one was: a record is read under its name just as it was
answered, a listing has everything that an earlier one had, and the events of an
artifact or an execution include every event that was created for it.

The proof runs twice. A first outline covers the run up to the first answer; there it
gives way to one whose invariant adds what was answered, and which asks more of the
second client's request only.
-/

import KfMetadata.Mlmd.Additions
import KfMetadata.Service.Answers
import KfMetadata.Service.Routes

namespace KfMetadata.Service

open Mlmd Remote Remote.Program

variable {ι : Type} [DecidableEq ι] {E : Effect api Store} {P : Store → Prop} {s t : Store}
  {c d : Config api Store ι Unit Request Answer} {i j : ι}

/-! ## A request that is sent later -/

/-- The records in the answer to a listing are among what it asks for. -/
theorem Kept.asked {r : Resource} {name : String} {response : (r.listItems name).Response}
    {x : Item r.kind} (hkept : Kept (r.listItems name) response s)
    (hx : Mentions (r.listItems name) response r x) : x ∈ asked r name s.contents := by
  cases r with
  | artifact => exact hkept.subset hx
  | execution => exact hkept.subset hx

/-- The name of the events of an artifact or an execution. -/
def eventsName (r : Resource) (id : Int) : String := r.collection ++ toString id

theorem parseEventsName_eventsName (r : Resource) {id : Int} (hid : IsId id) :
    parseEventsName (eventsName r id) r.collection = .ok id := by
  simp only [parseEventsName, eventsName, Text.trimPrefix_append,
    Text.parseInt64_toString hid.1.le hid.2]

/-- The lookup of the events of an artifact or an execution. -/
def eventsOf : Resource → Int → Handler (List Event)
  | .artifact, id => eventsOrNone (.getEventsByArtifactIDs [id]) fun result => result
  | .execution, id => eventsOrNone (.getEventsByExecutionIDs [id]) fun result => result

/-- The name says of which of the two they are. -/
theorem hasPrefix_eventsName (r : Resource) (id : Int) :
    Text.hasPrefix (eventsName r id) artifactCollection = true ↔ r = .artifact := by
  cases r with
  | artifact => exact iff_of_true (Text.hasPrefix_iff.mpr ⟨toString id, rfl⟩) rfl
  | execution =>
      have hdiffers : Text.hasPrefix (eventsName .execution id) artifactCollection = false := by
        rw [eventsName, Text.hasPrefix, String.toList_append]
        rfl
      simp [ hdiffers]

/-- Further clients have created an execution and the event. -/
def loggedM : Config api Store Nat Unit Request Answer :=
  answered (answered (answered createdM 2 createTypeR) 3 createR) 4 (.createEvent (some outputM))

end KfMetadata.Service
