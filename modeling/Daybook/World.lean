/-
What surrounds the diary: the backend behind its wire, the files on disk
and the outbox.
-/
import Daybook.Outbox.Basic
import Daybook.Backend.Basic

namespace Daybook

/-- The surroundings of a session. -/
structure World where
  site : Backend.Site
  wire : Http.Wire
  disk : Disk
  outbox : Outbox.Access

namespace World

/-- Carries out an action on the backend. -/
def run {α : Type} (world : World) (action : Backend.Call α) :
    Except Backend.Trouble α × World :=
  let (result, wire) := ExceptT.run action world.wire
  (result, { world with wire := wire })

/-- Queues an entry in the outbox. -/
def queue (world : World) (kind payload : Json) : Except Outbox.Refusal World :=
  (Outbox.append world.outbox world.disk kind payload).map fun disk =>
    { world with disk := disk }

/-- What comes of trying to queue an entry that the backend did not take. -/
inductive Queueing where
  /-- The entry is in the outbox. -/
  | queued (world : World)
  /-- The outbox could not be written. -/
  | failed (e : FileError)
  /-- The entry has no text. -/
  | faulty (f : Fault) (world : World)
  /-- The entry is not to be queued: the backend refused it, there is no
  outbox, or the entry cannot be sent from there. -/
  | declined

/-- Queues an entry if the backend was out of reach. -/
def queueUnreached (world : World) (e : Backend.CallError) (kind : String)
    (payload : Option Json) : Queueing :=
  match payload with
  | some payload =>
    if e.unreachable && world.outbox ≠ .absent then
      match world.queue (.str kind) payload with
      | .ok world => .queued world
      | .error (.unwritable e) => .failed e
      | .error (.unspelled f disk) => .faulty f { world with disk := disk }
    else .declined
  | none => .declined

end World
end Daybook
