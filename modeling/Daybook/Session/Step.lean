/-
A session line by line.

Each line goes to exactly one place: to the confirmation that waits, to
the form or the revision that is open, or else it is read as an
instruction.  The user's own line comes first among the messages.
-/
import Daybook.Session.Actions

namespace Daybook.Session

open Message (reply note)

/-- Settles the action that waits for a confirmation. -/
def settle (session : Session) (line : String) (world : World) : Outcome :=
  match session.gate.resolve line with
  | (.none, _, _) => session.say [note "Please type 'yes' or 'no' to confirm."] world
  | (.no, _, gate) =>
    { session with gate := gate, flow := .idle }.say [reply "Action cancelled."] world
  | (.yes, action, gate) =>
    let session := { session with gate := gate, flow := .idle }
    match action.map Pending.data with
    | some (.delete deletion) => session.carryOutDelete deletion world
    | some (.edit memory) => session.openRevision memory world
    | none => session.say [] world

/-- Hands a line to the form that is open.  When the form is over, the
stand-in for its image goes. -/
def fillIn (session : Session) (form : Form) (line : String) (world : World) : Outcome :=
  let (turn, world) := form.answer line world
  if turn.ended then
    let session := { session with flow := .idle }
    match dropWhere isPreview session.visible with
    | .error f => session.stopAt f world
    | .ok visible => ⟨turn.reply, { session with visible := visible }, world⟩
  else ⟨turn.reply, { session with flow := .building turn.state }, world⟩

/-- Hands a line to the revision that is open.  A revision that was saved
is shown in the place of what it revised. -/
def revise (session : Session) (revision : Revision) (line : String) (world : World) : Outcome :=
  let (turn, world) := revision.answer line world
  let session := { session with flow := .editing turn.state }
  let (visible, result) := if turn.completed then replaceVisible turn.state.revised session.visible
    else (session.visible, .ok ())
  let session := { session with visible := visible }
  match result with
  | .error f => session.stopAt f world
  | .ok () => ⟨turn.reply, if turn.ended then { session with flow := .idle } else session, world⟩

/-- Sends a line to its place. -/
def route (session : Session) (line : String) (world : World) : Outcome :=
  match session.flow with
  | .confirming => session.settle line world
  | .building form => session.fillIn form line world
  | .editing revision => session.revise revision line world
  | .idle => session.carryOut (Instruction.read line) world

/-- Takes one line of input; a blank line is nothing. -/
def handle (session : Session) (line : String) (world : World) : Outcome :=
  let text := Text.trimmed line
  if text = "" then session.say [] world
  else
    let outcome := session.route text world
    { outcome with reply := outcome.reply.map (⟨session.username, text, .text⟩ :: ·) }

/-- Takes one line of input while another one is still being handled. -/
def handleBusy (session : Session) (line : String) (world : World) : Outcome :=
  if Text.trimmed line = "" then session.say [] world
  else session.say [note "Still working on the previous command. Please wait."] world

/-- Takes the file that was selected for the image of a form. -/
def selectFile (session : Session) (filename : String) (image : Content) (path : Option String)
    (world : World) : Outcome :=
  match session.flow with
  | .building form =>
    if session.awaitsFile then
      let turn := form.deliver filename image path
      let session := { session with flow := .building turn.state }
      match turn.reply with
      | .error f => session.stopAt f world
      | .ok messages =>
        let number := session.previews + 1
        { session with
          previews := number
          visible := previewOf number filename :: session.visible }.say messages world
    else session.say [note "No image upload is waiting for a file."] world
  | _ => session.say [note "No image upload is waiting for a file."] world

end Daybook.Session
