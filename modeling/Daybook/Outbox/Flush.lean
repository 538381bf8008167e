/-
Flushing the outbox: sending its entries again.

Entries are sent in order.  The first one that fails, and all behind it,
stay in the outbox.  An image is read from its file and uploaded, and then
recorded as a memory whatever the upload's answer holds.  A fault ends the
flush and leaves the outbox as it was.
-/
import Daybook.Backend.Images
import Daybook.Backend.Memories
import Daybook.Outbox.Basic
import Daybook.Outbox.Payload

namespace Daybook.Outbox

open Backend Http

/-- The name and the content of the file at the path that a value is.  A
string with a lone surrogate may be a path whose bytes are no text, but no
file is there. -/
def readNamed (disk : Disk) (value : Json) : Except Trouble (String × Content) :=
  match value with
  | .ofText text =>
    let path := Path.ofString text
    if Path.holdsNull text then .error (.fault .nullInPath)
    else
      match disk.read path with
      | .ok image => .ok (path.name, image)
      | .error e => .error (.file e)
  | .str broken =>
    if broken.points.any (!·.isEncodable) then .error (.fault .unencodable)
    else if Path.holdsNull broken.text then .error (.fault .nullInPath)
    else .error (.file ⟨.missing, Path.ofString broken.text⟩)
  | _ => .error (.fault .notACollection)

/-- A failure of a call that was never sent. -/
def unsent (message : String) : Trouble := .call ⟨message, none, false⟩

/-- Uploads the image of a queued payload and returns what is to be
recorded of it. -/
def uploadQueued (site : Site) (disk : Disk) (payload : Record) : Call Record := do
  let file := Record.get payload "file_path"
  let payload := Record.erase payload "file_path"
  if file.isVacant then throw (unsent "Queued image has no file path")
  let (name, image) ← ExceptT.mk (pure (readNamed disk file))
  let uploaded ← site.uploadImage image name (Record.get payload "description")
    (Record.get payload "tags") (Record.get payload "album")
  return (Record.set payload "image_url" (Record.get uploaded "image_url")).set "image_id"
    (Record.get uploaded "id")

/-- Sends one entry again; images only if there is a store for them. -/
def replay (site : Site) (images : Bool) (disk : Disk) (entry : Json) : Call Unit := do
  let payload ← Call.ofExcept (do payloadRecord (← entry.field "payload"))
  let kind ← Call.ofExcept (entry.field "kind")
  let payload ← match kind with
    | .ofText "image" =>
      if images then uploadQueued site disk payload
      else throw (unsent "No media store to upload queued image")
    | _ => pure payload
  let _ ← site.createMemory payload

/-- Sends entries again until one fails; how many were sent, and those
that remain. -/
def replayAll (site : Site) (images : Bool) (disk : Disk) :
    List Json → ExceptT Fault (StateM Wire) (Nat × List Json)
  | [] => pure (0, [])
  | entry :: entries => fun wire =>
    match (replay site images disk entry).run wire with
    | (.ok (), wire) =>
      match (replayAll site images disk entries).run wire with
      | (.ok (sent, left), wire) => (.ok (sent + 1, left), wire)
      | (.error f, wire) => (.error f, wire)
    | (.error (.fault f), wire) => (.error f, wire)
    | (.error _, wire) => (.ok (0, entry :: entries), wire)

/-- How a flush went. -/
structure Flushed where
  sent : Nat
  remaining : Nat

/-- Sends the entries of the outbox again and keeps the rest. -/
def flush (site : Site) (images : Bool) (disk : Disk) (wire : Wire) :
    Except Fault Flushed × Disk × Wire :=
  match pending disk with
  | .error f => (.error f, disk, wire)
  | .ok entries =>
    match (replayAll site images disk entries).run wire with
    | (.error f, wire) => (.error f, disk, wire)
    | (.ok (sent, left), wire) => (.ok ⟨sent, left.length⟩, keep disk left, wire)

end Daybook.Outbox
