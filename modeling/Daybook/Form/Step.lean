/-
Filling in a form, line by line.

`cancel` and `exit` leave the form at any step.  `skip` passes a step that
can be skipped, `done` ends a step that collects.  Any other line is the
answer to the step.  The answer to the last step saves the draft; if that
fails, the draft is queued in the outbox or the form waits at its last
step for another try.
-/
import Daybook.Form.Answer
import Daybook.Form.Save
import Daybook.World

namespace Daybook.Form

open Message (reply note)

/-- Opens a form with some fields filled in. -/
def start (kind : Entry.Kind) (seed : Record) : Form := ⟨kind, Draft.start kind seed, 0⟩

/-- What the step that waits asks. -/
def prompt (form : Form) : Except Fault (List Message) :=
  match form.step? with
  | some step => step.prompt form.kind form.draft
  | none => .error .noSuchStep

/-- Some messages, and then what the step that waits asks. -/
def saying (form : Form) (messages : List Message) : Except Fault (List Message) :=
  form.prompt.map (messages ++ ·)

/-- Waits at the last step for another try, after a failed save. -/
def park (form : Form) (messages : List Message) (failure : String) : Turn Form :=
  let form := { form with index := lastIndex form.kind }
  .held form
    (form.saying (messages ++ [note ("Your " ++ form.kind.name ++
      " is kept. Answer again to retry, or type 'cancel' to discard it.")]))
    failure

/-- What follows a save that the backend did not take. -/
def saveFailed (form : Form) (messages : List Message) (world : World)
    (e : Backend.CallError) : Turn Form × World :=
  match form.draft.queuedPayload form.kind with
  | .error f => (.go form (.error f), world)
  | .ok payload =>
    match world.queueUnreached e form.kind.name payload with
    | .queued world =>
      let saved := reply (form.kind.label ++ " saved locally. (Backend unavailable)")
      ({ Turn.stop form (messages ++ [saved]) with failure := some e.message }, world)
    | .failed e' =>
      let problem := note ("Error: could not save locally: " ++ e'.message)
      (form.park (messages ++ [problem]) e.message, world)
    | .faulty f world => (.go form (.error f), world)
    | .declined => (form.park (messages ++ [note ("Error: " ++ e.message)]) e.message, world)

/-- Saves the draft of a form whose steps are all answered. -/
def save (form : Form) (messages : List Message) (world : World) : Turn Form × World :=
  match world.run (form.draft.save world.site form.kind) with
  | (.ok _, world) =>
    (.done form ((form.draft.savedNotes form.kind).map (messages ++ ·)), world)
  | (.error (.call e), world) => form.saveFailed messages world e
  | (.error (.fault f), world) => (.go form (.error f), world)
  | (.error (.file e), world) => (form.park (messages ++ [note ("Error: " ++ e.message)]) e.message, world)

/-- Goes on to the next step, or saves after the last one. -/
def advance (form : Form) (messages : List Message) (world : World) : Turn Form × World :=
  let form := { form with index := form.index + 1 }
  if form.index < (formSteps form.kind).length then (.go form (form.saying messages), world)
  else form.save messages world

/-- The sentence on leaving a form. -/
def cancelNote (kind : Entry.Kind) : Message :=
  reply (kind.label ++ (if kind = .image then " upload" else " creation") ++ " cancelled.")

/-- Takes the answer to a step. -/
def answerStep (form : Form) (step : FormStep) (text : String) (world : World) :
    Turn Form × World :=
  match step.take form.draft text with
  | .error f => (.go form (.error f), world)
  | .ok (.rejected reason) => (.go form (.ok [note reason]), world)
  | .ok (.calledOff reason) => (.stop form [reply reason], world)
  | .ok (.taken draft messages) =>
    let form := { form with draft := draft }
    if step.collects then (.go form (.ok (messages ++ [note step.moreNote])), world)
    else form.advance messages world

/-- Takes one line of input. -/
def answer (form : Form) (line : String) (world : World) : Turn Form × World :=
  let text := Text.trimmed line
  let word := Text.lowercase text
  if word ∈ cancelWords then (.stop form [cancelNote form.kind], world)
  else
    match form.step? with
    | none => (.go form (.error .noSuchStep), world)
    | some step =>
      if step.collects && word == "done" then
        if (form.draft.get step.name).isVacant then (.go form (.ok [note step.emptyNote]), world)
        else form.advance [] world
      else
        match if word = "skip" then step.skipped? else none with
        | some value =>
          { form with draft := form.draft.set step.name value }.advance [] world
        | none => form.answerStep step text world

/-- Takes the file that the user selected.  A draft that has a description
already goes straight to its confirmation. -/
def deliver (form : Form) (filename : String) (image : Content) (path : Option String) :
    Turn Form :=
  if form.step? = some .select then
    let draft := ({ form.draft with image := some image }.set "filename" (.str filename)).set
      "file_path" (.ofOption path)
    let index := if (draft.get "description").isVacant then form.index + 1 else lastIndex form.kind
    let form := { form with draft := draft, index := index }
    .go form (form.saying [reply ("Image selected: " ++ filename)])
  else .go form (.ok [note "No image is waiting for a file."])

end Daybook.Form
