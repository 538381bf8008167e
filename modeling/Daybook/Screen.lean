/-
What the terminal shows: lines of styled text, the welcome panel and the
cleared screen.

A message is one line: the speaker, an arrow and the text, each in the
style of the speaker.  The user's own line is already on the screen when
it is handled, so it can be left out.
-/
import Daybook.Message

namespace Daybook

/-- A piece of text and its style. -/
structure Segment where
  text : String
  style : String
deriving DecidableEq

/-- One thing shown. -/
inductive Print where
  /-- The screen is cleared. -/
  | clear
  /-- A text; a line break follows unless it is a prompt. -/
  | text (segments : List Segment) (breaks : Bool)
  /-- A text in a frame. -/
  | panel (segments : List Segment) (border : String)

namespace Screen

/-- A text without the control characters that a terminal acts on. -/
def printable (s : String) : String :=
  String.ofList (s.toList.filter fun c => !([7, 8, 11, 12, 13].contains c.toNat))

/-- Styled pieces of text without control characters.  A piece given empty
is left out; one that holds control characters alone is shown empty. -/
def styled (pieces : List (String × String)) : List Segment :=
  (pieces.filter fun (text, _) => text ≠ "").map fun (text, style) => ⟨printable text, style⟩

/-- The style of a speaker's name. -/
def nameStyle (speaker : String) : String :=
  if speaker = Message.mother then "bold #39FF14"
  else if speaker = Message.guide then "bold #00D9FF"
  else "bold #FF10F0"

/-- The style of errors. -/
def errorStyle : String := "bold #ff10f0"

/-- The style of what went well. -/
def successStyle : String := "#39ff14"

/-- The style of a message's text. -/
def textStyle (message : Message) : String :=
  if message.speaker = Message.mother then "#39ff14"
  else if message.speaker = Message.guide then
    if "Error".isPrefixOf message.text || "Unknown command".isPrefixOf message.text then errorStyle
    else "dim #00d9ff"
  else "bright_white"

/-- A message as it is shown. -/
def showMessage (message : Message) : Print :=
  match message.kind with
  | .clear => .clear
  | .text =>
    .text (styled [(message.speaker, nameStyle message.speaker), (" > ", "dim white"),
      (message.text, textStyle message)]) true

/-- Messages as they are shown, without those of the speaker whose lines
are on the screen already; an empty name leaves out none. -/
def showMessages (messages : List Message) (skipped : String) : List Print :=
  (messages.filter fun message => skipped = "" ∨ message.speaker ≠ skipped).map showMessage

/-- A line in one style. -/
def line (text style : String) : Print := .text [⟨text, style⟩] true

/-- An empty line. -/
def blankLine : Print := line "" ""

/-- The welcome to a user. -/
def welcome (username : String) : List Print := [
  .panel (styled [("MiD // MY DIARY", "bold #00D9FF"), ("\n", ""),
    ("Signed in as " ++ username ++ ". Type ", "dim white"), ("help", "#39FF14"),
    (" for commands, ", "dim white"), ("quit", "#FF10F0"), (" to exit", "dim white")]) "#00D9FF",
  blankLine]

/-- The prompt for a user's line. -/
def prompt (username : String) : Print :=
  .text (styled [(username, "bold bright_white"), (" > ", "bold #00D9FF")]) false

/-- The last line of a session. -/
def goodbye : Print := line "Goodbye!" "bold #FF10F0"

end Screen
end Daybook
