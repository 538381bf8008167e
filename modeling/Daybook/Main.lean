/-
The program: the diary on standard input and output.

It has no connection of its own, so every request is lost: what is created
waits in the outbox, and the outbox is kept from one run to the next.  The
rounds of the terminal decide everything; here lines and files are read,
and texts and the outbox are written.
-/
import Daybook.Terminal.Loop

namespace Daybook.Program

/-- Writes what the terminal shows, without its styles. -/
def display (shown : Print) : IO Unit := do
  let out ← IO.getStdout
  match shown with
  | .clear => out.putStr "\x1b[2J\x1b[H"
  | .text segments breaks =>
    out.putStr (String.join (segments.map Segment.text) ++ (if breaks then "\n" else ""))
  | .panel segments _ => out.putStr (String.join (segments.map Segment.text) ++ "\n")
  out.flush

/-- The content of a file, if it can be read. -/
def readContent (name : String) : IO (Option Content) := do
  try
    let bytes ← IO.FS.readBinFile name
    return some (Content.ofBytes bytes)
  catch _ => return none

/-- Where the outbox is kept. -/
def outboxFile : IO String := do
  match ← IO.getEnv "MID_OUTBOX_PATH" with
  | some name => return name
  | none => return ((← IO.getEnv "HOME").getD ".") ++ "/.mid/outbox.jsonl"

/-- Writes the outbox to its file. -/
def keepOutbox (file : String) (disk : Disk) : IO Unit := do
  match disk.get? Outbox.path with
  | some content =>
    let parent := "/".intercalate ((file.splitOn "/").dropLast)
    unless parent.isEmpty do IO.FS.createDirAll parent
    IO.FS.writeBinFile file content.bytes
  | none => try IO.FS.removeFile file catch _ => pure ()

/-- The home directories by the names of their owners: the user's own one
as the environment gives it, the others from the list of accounts. -/
def homeDirectories : IO (List (String × String)) := do
  let own := (← IO.getEnv "HOME").toList.map fun home => ("", home)
  let accounts ← try IO.FS.lines "/etc/passwd" catch _ => pure #[]
  return own ++ accounts.toList.filterMap fun account =>
    match account.splitOn ":" with
    | name :: _ :: _ :: _ :: _ :: home :: _ => some (name, home)
    | _ => none

/-- The surroundings at the start of a run. -/
def surroundings (settings : Terminal.Settings) (file : String) : IO World := do
  let base := toString (← IO.currentDir)
  let disk : Disk := ⟨base, [], ← homeDirectories⟩
  let disk := match ← readContent file with
    | some content => disk.put Outbox.path content
    | none => disk
  return {
    site := .of settings.apiBase settings.token
    wire := ⟨[], .lost, []⟩
    disk := disk
    outbox := if file.isEmpty then .absent else .writable }

/-- The disk with the file that a line of input names, while the terminal
waits for one. -/
def withFile (state : Terminal.State) (line : String) : IO Disk := do
  let disk := state.world.disk
  if state.session.awaitsFile then
    match disk.expand (.ofString (Text.trimmed line)) with
    | .ok path =>
      match ← readContent path.text with
      | some content => return disk.put path content
      | none => return disk
    | .error _ => return disk
  else return disk

/-- Rounds of the terminal until it is done; the exit code. -/
partial def loop (file : String) (state : Terminal.State) : IO UInt32 := do
  for shown in state.prints do display shown
  let state := { state with prints := [] }
  let waits := state.session.awaitsFile
  display (if waits then .text [⟨"Image file (empty to cancel): ", ""⟩] false
    else Screen.prompt state.session.username)
  let line ← (← IO.getStdin).getLine
  let disk ← withFile state line
  let state := { state with world := { state.world with disk := disk } }
  let (state, status) := state.round (if line.isEmpty then none else some line)
  keepOutbox file state.world.disk
  let state := if waits then state else { state with prints := state.prints.drop 1 }
  match status with
  | .running => loop file state
  | .finished => do
    for shown in state.prints do display shown
    return 0
  | .failed _ => return 1

/-- The usage text. -/
def usage : String :=
  "usage: daybook [-h] [--api-base API_BASE] [--token TOKEN] [--user USER] [--verbose] [--flush-outbox]\n"

/-- Runs the program. -/
def run (args : List String) : IO UInt32 := do
  let defaults : Terminal.Settings := {
    apiBase := (← IO.getEnv "MID_API_BASE").getD "http://localhost:3000/api"
    token := ← IO.getEnv "MID_API_TOKEN"
    user := (← IO.getEnv "MID_USERNAME").getD "User"
    verbose := false
    flushOutbox := false }
  match Terminal.readOptions defaults args with
  | .help => do (← IO.getStdout).putStr usage; return 0
  | .refused => do (← IO.getStderr).putStr usage; return 2
  | .run settings =>
    let file ← outboxFile
    let world ← surroundings settings file
    if settings.flushOutbox then
      let (exit, prints, world) := Terminal.flushOutbox world
      for shown in prints do display shown
      keepOutbox file world.disk
      return match exit with
        | .ok code => UInt32.ofNat code
        | .error _ => 1
    else loop file (.start settings.user world)

end Daybook.Program

/-- Runs the diary on the arguments of the command line. -/
def main (args : List String) : IO UInt32 := Daybook.Program.run args
