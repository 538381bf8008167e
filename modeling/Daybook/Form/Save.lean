/-
Saving what a form has collected.

Tables, lists and timelines are created as memories.  An image is uploaded
first and then recorded as a memory, unless the upload's answer holds that
memory already.  What goes into the outbox instead is the payload of the
memory; for an image that is possible only if its file is known.
-/
import Daybook.Backend.Images
import Daybook.Backend.Memories
import Daybook.Form.Basic
import Daybook.Message

namespace Daybook.Draft

open Backend
open Message (reply note)

/-- The fields of the memory that hold what was collected. -/
def contentFields : Entry.Kind → List JsonString
  | .table => ["columns", "rows"]
  | .list => ["items"]
  | .timeline => ["events"]
  | .image => []

/-- The memory for a table, list or timeline; its title is its content, or
else the name of its kind. -/
def structuredPayload (kind : Entry.Kind) (draft : Draft) : Except Fault Record := do
  let tags ← (draft.get "tags").elementsOrNone
  return ([("type", .str kind.name), ("content", (draft.get "title").orElse (.str kind.label)),
      ("tags", .arr tags), ("category", draft.get "category")] : Record) ++
    (contentFields kind).map fun key => (key, draft.get key)

/-- The memory for an image, with what the answer to its upload says of
it. -/
def imagePayload (draft : Draft) (uploaded : Record) : Except Fault Record := do
  let description := (draft.get "description").orElse (.str "")
  let tags ← (draft.get "tags").elementsOrNone
  return [("type", .str "image"), ("content", description.orElse (.str "Image")),
    ("description", description), ("tags", .arr tags), ("album", draft.get "album"),
    ("image_url", Record.get uploaded "image_url"), ("image_id", Record.get uploaded "id")]

/-- Uploads the image of a draft and records it. -/
def saveImage (site : Site) (draft : Draft) : Call Record := do
  let filename := ((draft.get "filename").orElse (.str "image")).text
  let image := draft.image.getD (.text "")
  let uploaded ← site.uploadImage image filename ((draft.get "description").orElse .null)
    ((draft.get "tags").orElse (.arr [])) (draft.get "album")
  match Record.get uploaded "memory" with
  | .obj memory => return memory
  | _ => site.createMemory (← Call.ofExcept (draft.imagePayload uploaded))

/-- Saves a draft on the backend. -/
def save (site : Site) (kind : Entry.Kind) (draft : Draft) : Call Record :=
  match kind with
  | .image => draft.saveImage site
  | kind => do site.createMemory (← Call.ofExcept (draft.structuredPayload kind))

/-- What is queued in the outbox if a draft cannot be saved, if anything
can. -/
def queuedPayload (kind : Entry.Kind) (draft : Draft) : Except Fault (Option Json) :=
  match kind with
  | .image =>
    if (draft.get "file_path").isVacant then .ok none
    else do
      let payload ← draft.imagePayload []
      return some (.obj (payload.set "file_path" (draft.get "file_path")))
  | kind => do return some (.obj (← draft.structuredPayload kind))

-- ======================================================= what is said

/-- The part of a sentence that names tags, if there are any. -/
def taggedPart (tags : Json) : Except Fault String :=
  if tags.isVacant then .ok ""
  else do return " Tags: " ++ (← Json.joined ", " (← tags.elements)) ++ "."

/-- The sentence on what was created, with its tags and its category. -/
def createdNote (kind : Entry.Kind) (draft : Draft) : Except Fault Message := do
  let tagged ← taggedPart (draft.get "tags")
  let category := draft.get "category"
  let filed := if category.isVacant then "" else " Category: " ++ category.text ++ "."
  return reply (kind.label ++ " created successfully!" ++ tagged ++ filed)

/-- The heading over the content of a list or a timeline. -/
def heading (kind : Entry.Kind) (draft : Draft) : Message :=
  note ("── " ++ ((draft.get "title").orElse (.str kind.label)).text ++ " ──")

/-- An event of a saved timeline in one line. -/
def eventLine (event : Json) : Except Fault Message := do
  let time ← event.field "time"
  if time.isVacant then
    match event with
    | .obj fields =>
      match Record.get? fields "description" with
      | some description => return note ("  • " ++ description.text)
      | none => .error .missingField
    | _ => .error .notAnObject
  else
    let shown ← Entry.eventText time (← event.field "description") Entry.dash
    return note ("  " ++ shown.text)

/-- What is said once a draft is saved. -/
def savedNotes (kind : Entry.Kind) (draft : Draft) : Except Fault (List Message) :=
  match kind with
  | .table => do return [← draft.createdNote .table]
  | .list => do
    let created ← draft.createdNote .list
    let items ← (draft.get "items").elements
    return [created, draft.heading .list] ++ items.map fun item => note ("  • " ++ item.text)
  | .timeline => do
    let created ← draft.createdNote .timeline
    let events ← (draft.get "events").elements
    return [created, draft.heading .timeline] ++ (← events.mapM eventLine)
  | .image => .ok [reply "Image uploaded successfully."]

end Daybook.Draft
