/-
Timeline events, as typed and as shown.

An event is typed as `TIME - DESCRIPTION`.  Only a hyphen, an en dash or
an em dash separates the two, and the first one that leaves something on
both sides does; a colon never does.  A line without such a dash is all
description.
-/
import Daybook.Entry.Time
import Daybook.Text.Scan

namespace Daybook.Entry

open Text

/-- Something that happens at a time; the time may be empty. -/
structure Event where
  time : String
  description : String
deriving DecidableEq

/-- The dashes that separate a time from a description. -/
def isDash (c : Char) : Bool := c == '-' || c == '–' || c == '—'

/-- The description after a dash and its blanks: one line that is not
empty. -/
def afterDash (cs : List Char) : Option (List Char) :=
  match skipBlank cs with
  | c :: description =>
    if isDash c then
      let text := skipBlank description
      if text.isEmpty || text.contains '\n' then none else some text
    else none
  | [] => none

/-- Cuts a line at its first usable dash, `before` being the part already
passed (in reverse): at least one character stands before the dash, and no
line break. -/
def cutAtDash (before : List Char) : List Char → Option (List Char × List Char)
  | [] => none
  | c :: cs =>
    match if before.isEmpty then none else afterDash (c :: cs) with
    | some description => some (before.reverse, description)
    | none => if c = '\n' then none else cutAtDash (c :: before) cs

/-- Reads an event from a line. -/
def Event.read (s : String) : Event :=
  let line := trim s.toList
  match cutAtDash [] line with
  | some (time, description) =>
    ⟨normalizeTime (String.ofList (trim time)), String.ofList (trim description)⟩
  | none => ⟨"", String.ofList line⟩

/-- Shows an event: its trimmed time, the separator and its description,
or the description alone if there is no time. -/
def Event.shown (event : Event) (separator : String) : String :=
  let time := trimmed event.time
  if time = "" then event.description
  else time ++ " " ++ separator ++ " " ++ event.description

end Daybook.Entry
