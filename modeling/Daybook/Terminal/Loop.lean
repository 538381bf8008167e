/-
The terminal: prompt, read, handle, show.

Each round makes one read.  While a form waits for the file of an image,
that is its path; otherwise it is a line for the session.  An interrupt
and the end of input count as `quit` at the prompt and as an empty path,
which cancels the form.  So at most two rounds follow the end of input.
-/
import Daybook.Outbox.Flush
import Daybook.Screen
import Daybook.Session.Step
import Daybook.Terminal.Options

namespace Daybook.Terminal

/-- The terminal: the session, what surrounds it, and what was shown. -/
structure State where
  session : Session
  world : World
  prints : List Print

/-- How a terminal stands after a round. -/
inductive Status where
  | running
  | finished
  | failed (f : Fault)

namespace State

/-- Shows some more. -/
def printing (state : State) (prints : List Print) : State :=
  { state with prints := state.prints ++ prints }

/-- Takes over what a step of the session came to, and shows its
messages. -/
def absorb (state : State) (outcome : Outcome) (skipped : String) : State × Status :=
  let state := { state with session := outcome.session, world := outcome.world }
  match outcome.reply with
  | .ok messages => (state.printing (Screen.showMessages messages skipped), .running)
  | .error f => (state, .failed f)

/-- Hands a line to the session. -/
def handle (state : State) (line : String) : State × Status :=
  state.absorb (state.session.handle line state.world) state.session.username

/-- Hands the file at a path to the session.  The path may begin in a home
directory; whose is found out before the file is opened, so an owner who
has none is no failure to read. -/
def pickFile (state : State) (text : String) : State × Status :=
  match state.world.disk.expand (.ofString text) with
  | .error f => (state, .failed f)
  | .ok path =>
    if Path.holdsNull path.text then (state, .failed .nullInPath)
    else
      match state.world.disk.read path with
      | .error e =>
        (state.printing [Screen.line ("Cannot read " ++ path.text ++ ": " ++ e.message) Screen.errorStyle],
          .running)
      | .ok content =>
        let place := state.world.disk.absolute path
        state.absorb (state.session.selectFile path.name content (some place) state.world) ""

/-- One round: what was read, or nothing on an interrupt or at the end of
input. -/
def round (state : State) (reading : Option String) : State × Status :=
  if state.session.awaitsFile then
    match reading with
    | none => (state.printing [Screen.blankLine]).handle "cancel"
    | some text =>
      let text := Text.trimmed text
      if text = "" then state.handle "cancel" else state.pickFile text
  else
    let state := state.printing [Screen.prompt state.session.username]
    match reading with
    | none => (state.printing [Screen.blankLine, Screen.goodbye], .finished)
    | some line =>
      let line := Text.trimmed line
      let word := Text.lowercase line
      if word = "quit" ∨ (word = "exit" ∧ state.session.active = false) then
        (state.printing [Screen.goodbye], .finished)
      else state.handle line

/-- Rounds at the end of input, at most `count`. -/
def drain (state : State) (count : Nat) : State × Status :=
  match count with
  | 0 => (state, .running)
  | count + 1 =>
    match state.round none with
    | (state, .running) => state.drain count
    | result => result

/-- Rounds over the whole input; also how much of it was not read. -/
def rounds (state : State) : List (Option String) → State × Status × Nat
  | [] =>
    let (state, status) := state.drain 2
    (state, status, 0)
  | reading :: readings =>
    match state.round reading with
    | (state, .running) => state.rounds readings
    | (state, status) => (state, status, readings.length)

/-- A terminal that has welcomed its user. -/
def start (username : String) (world : World) : State :=
  let session := Session.start username
  { session := session
    world := world
    prints := Screen.welcome username ++ Screen.showMessages session.greeting "" }

end State

-- ============================================================ programs

/-- How a run of the program ended. -/
structure Run where
  exit : Except Fault Nat
  prints : List Print
  world : World
  unread : Nat

/-- Sends the entries of the outbox again. -/
def flushOutbox (world : World) : Except Fault Nat × List Print × World :=
  if world.outbox = .absent then
    (.ok 1, [Screen.line "No outbox configured." Screen.errorStyle], world)
  else
    let (result, disk, wire) := Outbox.flush world.site true world.disk world.wire
    let world := { world with disk := disk, wire := wire }
    match result with
    | .error f => (.error f, [], world)
    | .ok flushed =>
      let sent := "Sent " ++ toString flushed.sent ++ " queued entries"
      if flushed.remaining = 0 then (.ok 0, [Screen.line (sent ++ ".") Screen.successStyle], world)
      else
        (.ok 1, [Screen.line (sent ++ "; " ++ toString flushed.remaining ++ " still waiting.")
          Screen.errorStyle], world)

/-- Runs the program on its arguments and its whole input. -/
def run (defaults : Settings) (args : List String) (input : List (Option String))
    (world : World) : Run :=
  match readOptions defaults args with
  | .help => ⟨.ok 0, [], world, input.length⟩
  | .refused => ⟨.ok 2, [], world, input.length⟩
  | .run settings =>
    let world := { world with site := .of settings.apiBase settings.token }
    if settings.flushOutbox then
      let (exit, prints, world) := flushOutbox world
      ⟨exit, prints, world, input.length⟩
    else
      let (state, status, unread) := (State.start settings.user world).rounds input
      let exit := match status with
        | .failed f => .error f
        | _ => .ok 0
      ⟨exit, state.prints, state.world, unread⟩

end Daybook.Terminal
